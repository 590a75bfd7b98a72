/-!
# JSON values

The values of the data format that snapshots are kept in. A number keeps what
was written: its digits, the power of ten they are scaled by, its sign, and
whether it was written as a whole number. An object keeps its members in order,
repeated names included.
-/

namespace CallAtlas

/-- A number as it was written: `±digits · 10 ^ exponent`. -/
structure JsonNumber where
  negative : Bool
  digits : Nat
  exponent : Int
  /-- Written with neither a fraction nor an exponent. -/
  whole : Bool
deriving DecidableEq, Repr, Inhabited

/-- A JSON value. -/
inductive Json where
  | null
  | bool (value : Bool)
  | number (value : JsonNumber)
  | string (value : String)
  | array (items : List Json)
  | object (members : List (String × Json))
deriving Repr, Inhabited

namespace Json

/-- The value that is a natural number. -/
def ofNat (n : Nat) : Json := number ⟨false, n, 0, true⟩

/-- The natural number a value is. A fraction, an exponent or a sign makes it
something else, even where the amount is a natural number. -/
def toNat? : Json → Option Nat
  | number ⟨false, n, _, true⟩ => some n
  | _ => none

/-- The text a value is. -/
def toString? : Json → Option String
  | string s => some s
  | _ => none

/-- The value of the last member with a given name. -/
def get? (j : Json) (name : String) : Option Json :=
  match j with
  | object members => (members.reverse.find? (·.1 == name)).map (·.2)
  | _ => none

@[simp] theorem toNat?_ofNat (n : Nat) : (ofNat n).toNat? = some n := rfl

@[simp] theorem toString?_string (s : String) : (string s).toString? = some s := rfl

end Json

end CallAtlas
