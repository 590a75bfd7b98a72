import CallAtlas.Number.Binary

/-!
# Decimal text of doubles

Two notations. `fixed` writes a number of decimal places, rounding the exact
value and sending halves to the even digit. `shortest` writes the fewest digits
that read back as the same double, never with an exponent.
-/

namespace CallAtlas.Number

/-- A natural number with at least `width` digits. -/
def padded (width n : Nat) : List Char :=
  let digits := Nat.toDigits 10 n
  List.replicate (width - digits.length) '0' ++ digits

/-- `n / 10 ^ places` with all its places. -/
def withPlaces (places n : Nat) : List Char :=
  Nat.toDigits 10 (n / Nat.pow 10 places) ++
    (if places == 0 then [] else '.' :: padded places (n % Nat.pow 10 places))

/-- A finite double with a fixed number of decimal places; others have no such
text. The sign of a negative zero is kept. -/
def fixed? (places : Nat) (x : Float) : Option String :=
  match parts x with
  | .finite negative m e =>
      let (num, den) := fractionOf m e
      let n := roundDiv (num * Nat.pow 10 places) den
      some (String.ofList ((if negative then ['-'] else []) ++ withPlaces places n))
  | _ => none

/-- The double's neighbourhood: the fractions between which every real rounds to
it, over a common denominator, and whether the two ends do so too. -/
structure Interval where
  low : Nat
  value : Nat
  high : Nat
  den : Nat
  closed : Bool

/-- The neighbourhood of `m · 2 ^ e`. Below a power of two the neighbours are
closer. -/
def intervalOf (m : Nat) (e : Int) : Interval :=
  let below := if m == Nat.pow 2 52 && e != -1074 then 1 else 2
  let (low, den) := fractionOf (4 * m - below) (e - 2)
  let (value, _) := fractionOf (4 * m) (e - 2)
  let (high, _) := fractionOf (4 * m + 2) (e - 2)
  { low, value, high, den, closed := m % 2 == 0 }

/-- Does `n · 10 ^ p` lie in the neighbourhood? -/
def Interval.holds (i : Interval) (n : Nat) (p : Int) : Bool :=
  let (num, den) := match p with
    | .ofNat k => (n * Nat.pow 10 k, 1)
    | .negSucc k => (n, Nat.pow 10 (k + 1))
  let inside (a b : Nat) : Bool := if i.closed then a ≤ b else a < b
  inside (i.low * den) (num * i.den) && inside (num * i.den) (i.high * den)

/-- The number on the grid `10 ^ p` that lies in the neighbourhood, the nearer of
two. -/
def Interval.onGrid? (i : Interval) (p : Int) : Option Nat :=
  let (num, den) := match p with
    | .ofNat k => (i.value, i.den * Nat.pow 10 k)
    | .negSucc k => (i.value * Nat.pow 10 (k + 1), i.den)
  let n := num / den
  let r := num % den
  match i.holds n p && 0 < n, i.holds (n + 1) p with
  | true, true => some (if 2 * r ≤ den then n else n + 1)
  | true, false => some n
  | false, true => some (n + 1)
  | false, false => none

/-- Tries finer and finer grids. -/
def Interval.coarsest (i : Interval) : Nat → Int → Nat × Int
  | 0, p => (0, p)
  | fuel + 1, p =>
      match i.onGrid? p with
      | some n => (n, p)
      | none => i.coarsest fuel (p - 1)

/-- `n · 10 ^ p` written out. -/
def positional (n : Nat) (p : Int) : List Char :=
  match p with
  | .ofNat k => Nat.toDigits 10 (n * Nat.pow 10 k)
  | .negSucc k => withPlaces (k + 1) n

/-- The fewest digits that read back as the double, written out in full. -/
def shortest (x : Float) : String :=
  match parts x with
  | .notANumber => "NaN"
  | .infinite negative => if negative then "-inf" else "inf"
  | .finite negative m e =>
      let digits :=
        if m == 0 then ['0']
        else
          let (n, p) := (intervalOf m e).coarsest 700 310
          positional n p
      String.ofList ((if negative then ['-'] else []) ++ digits)

end CallAtlas.Number
