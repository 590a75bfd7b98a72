/-!
# Binary numbers taken apart

A finite double is `±mantissa · 2 ^ exponent` with natural mantissa. Everything
that has to be exact about doubles (rounding to decimal places, the shortest
decimal, distances) is computed from these parts in whole numbers.
-/

namespace CallAtlas.Number

/-- What a double stands for. -/
inductive Parts where
  | notANumber
  | infinite (negative : Bool)
  /-- `±mantissa · 2 ^ exponent`. -/
  | finite (negative : Bool) (mantissa : Nat) (exponent : Int)
deriving DecidableEq, Repr

/-- The parts of the double with given bits. -/
def partsOfBits (bits : UInt64) : Parts :=
  let negative := bits >>> 63 == 1
  let field := ((bits >>> 52) &&& 0x7FF).toNat
  let fraction := (bits &&& 0xFFFFFFFFFFFFF).toNat
  if field == 0x7FF then
    if fraction == 0 then .infinite negative else .notANumber
  else if field == 0 then .finite negative fraction (-1074)
  else .finite negative (fraction + Nat.pow 2 52) (field - 1075)

/-- The parts of a double. -/
def parts (x : Float) : Parts := partsOfBits x.toBits

/-- `m · 2 ^ e` as a fraction of whole numbers. -/
def fractionOf (m : Nat) (e : Int) : Nat × Nat :=
  match e with
  | .ofNat k => (m * Nat.pow 2 k, 1)
  | .negSucc k => (m, Nat.pow 2 (k + 1))

/-- The quotient rounded to the nearest whole number, halves to the even one. -/
def roundDiv (num den : Nat) : Nat :=
  let q := num / den
  let r := num % den
  if 2 * r < den then q
  else if den < 2 * r then q + 1
  else if q % 2 == 0 then q else q + 1

/-- The largest whole number whose square is at most `n`. -/
def floorRoot (n : Nat) : Nat :=
  if h : n = 0 then 0
  else
    let s := 2 * floorRoot (n / 4)
    if (s + 1) * (s + 1) ≤ n then s + 1 else s
termination_by n
decreasing_by omega

/-- The double nearest to `num · 2 ^ e`, halves to the even mantissa, where
`sticky` says that the exact amount is a little more than that. `num` has more
than 54 bits or is exact. -/
def roundToFloat (num : Nat) (e : Int) (sticky : Bool) : Float :=
  let bits := if num == 0 then 0 else num.log2 + 1
  let drop := bits - 53
  let den := Nat.pow 2 drop
  let q := num / den
  let r := num % den
  let q :=
    if 2 * r < den then q
    else if den < 2 * r || sticky then q + 1
    else if q % 2 == 0 then q else q + 1
  let q := if drop == 0 then num else q
  Float.scaleB (Float.ofNat q) (e + drop)

/-- The length of the longer side of a right triangle: the double nearest to the
root of the sum of the squares. An infinite side wins over one that is not a
number. -/
def hypot (x y : Float) : Float :=
  match parts x, parts y with
  | .infinite _, _ => 1.0 / 0.0
  | _, .infinite _ => 1.0 / 0.0
  | .notANumber, _ => x
  | _, .notANumber => y
  | .finite _ m d, .finite _ n e =>
      let low := min d e
      let a := m * Nat.pow 2 (d - low).toNat
      let b := n * Nat.pow 2 (e - low).toNat
      let square := (a * a + b * b) * Nat.pow 2 120
      let root := floorRoot square
      roundToFloat root (low - 60) (root * root != square)

end CallAtlas.Number
