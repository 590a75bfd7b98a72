import CallAtlas.Json.Basic

/-!
# Reading JSON

A strict reader: one value, nothing after it but white space, no leading zeros,
no control characters in strings, and no half of a surrogate pair without the
other. The recursion is bounded by the length of the text, which no value can
exceed.
-/

namespace CallAtlas.Json

/-- The white space of the format. -/
def isSpace (c : Char) : Bool := c == ' ' || c == '\n' || c == '\t' || c == '\r'

/-- The text from its first character on that is not white space. -/
def skipSpace (cs : List Char) : List Char := cs.dropWhile isSpace

/-- The amount of a hexadecimal digit. -/
def hexValue? (c : Char) : Option Nat :=
  if '0' ≤ c ∧ c ≤ '9' then some (c.toNat - 48)
  else if 'a' ≤ c ∧ c ≤ 'f' then some (c.toNat - 87)
  else if 'A' ≤ c ∧ c ≤ 'F' then some (c.toNat - 55)
  else none

/-- The amount of four hexadecimal digits. -/
def hex4? (a b c d : Char) : Option Nat := do
  let a ← hexValue? a
  let b ← hexValue? b
  let c ← hexValue? c
  let d ← hexValue? d
  return ((a * 16 + b) * 16 + c) * 16 + d

/-- The character an escape of one letter stands for. -/
def simpleEscape? : Char → Option Char
  | '"' => some '"'
  | '\\' => some '\\'
  | '/' => some '/'
  | 'b' => some '\x08'
  | 'f' => some '\x0c'
  | 'n' => some '\n'
  | 'r' => some '\r'
  | 't' => some '\t'
  | _ => none

/-- The character of a surrogate pair. -/
def pairedChar (high low : Nat) : Char :=
  Char.ofNat (0x10000 + (high - 0xD800) * 0x400 + (low - 0xDC00))

/-- Reads a string from the character after its opening quote on. -/
def readString : List Char → Option (List Char × List Char)
  | [] => none
  | '"' :: cs => some ([], cs)
  | '\\' :: 'u' :: a :: b :: c :: d :: cs =>
      match hex4? a b c d with
      | none => none
      | some n =>
          if 0xD800 ≤ n ∧ n ≤ 0xDBFF then
            match cs with
            | '\\' :: 'u' :: e :: f :: g :: h :: ds =>
                match hex4? e f g h with
                | none => none
                | some m =>
                    if 0xDC00 ≤ m ∧ m ≤ 0xDFFF then
                      (readString ds).map fun (s, rest) => (pairedChar n m :: s, rest)
                    else none
            | _ => none
          else if 0xDC00 ≤ n ∧ n ≤ 0xDFFF then none
          else (readString cs).map fun (s, rest) => (Char.ofNat n :: s, rest)
  | '\\' :: e :: cs =>
      match simpleEscape? e with
      | none => none
      | some c => (readString cs).map fun (s, rest) => (c :: s, rest)
  | c :: cs =>
      if c.toNat < 0x20 ∨ c = '\\' then none
      else (readString cs).map fun (s, rest) => (c :: s, rest)

/-- The amount of a list of decimal digits. -/
def digitsValue (cs : List Char) : Nat := cs.foldl (fun n c => 10 * n + (c.toNat - 48)) 0

/-- Reads the digits before a point: a zero alone, or digits that do not start
with one. -/
def readWholeDigits (cs : List Char) : Option (List Char × List Char) :=
  match cs with
  | '0' :: rest => some (['0'], rest)
  | _ =>
      let digits := cs.takeWhile Char.isDigit
      if digits.isEmpty then none else some (digits, cs.dropWhile Char.isDigit)

/-- Reads a point and the digits after it, if there is a point. -/
def readFraction (cs : List Char) : Option (List Char × List Char) :=
  match cs with
  | '.' :: rest =>
      let digits := rest.takeWhile Char.isDigit
      if digits.isEmpty then none else some (digits, rest.dropWhile Char.isDigit)
  | _ => some ([], cs)

/-- Reads an exponent, if there is one. -/
def readExponent (cs : List Char) : Option (Option Int × List Char) :=
  let signed (negative : Bool) (rest : List Char) : Option (Option Int × List Char) :=
    let digits := rest.takeWhile Char.isDigit
    if digits.isEmpty then none
    else
      let n : Int := digitsValue digits
      some (some (if negative then -n else n), rest.dropWhile Char.isDigit)
  let after (rest : List Char) : Option (Option Int × List Char) :=
    match rest with
    | '-' :: rest => signed true rest
    | '+' :: rest => signed false rest
    | _ => signed false rest
  match cs with
  | 'e' :: rest => after rest
  | 'E' :: rest => after rest
  | _ => some (none, cs)

/-- Reads a number. -/
def readNumber (cs : List Char) : Option (JsonNumber × List Char) := do
  let (negative, cs) := match cs with
    | '-' :: rest => (true, rest)
    | _ => (false, cs)
  let (whole, cs) ← readWholeDigits cs
  let (fraction, cs) ← readFraction cs
  let (exponent, cs) ← readExponent cs
  let number : JsonNumber :=
    { negative, digits := digitsValue (whole ++ fraction),
      exponent := exponent.getD 0 - fraction.length,
      whole := fraction.isEmpty && exponent.isNone }
  return (number, cs)

mutual

/-- Reads a value, nested at most `fuel` deep and long. -/
def readValue : Nat → List Char → Option (Json × List Char)
  | 0, _ => none
  | fuel + 1, cs =>
      match skipSpace cs with
      | 'n' :: 'u' :: 'l' :: 'l' :: cs => some (null, cs)
      | 't' :: 'r' :: 'u' :: 'e' :: cs => some (bool true, cs)
      | 'f' :: 'a' :: 'l' :: 's' :: 'e' :: cs => some (bool false, cs)
      | '"' :: cs => (readString cs).map fun (s, rest) => (string (String.ofList s), rest)
      | '[' :: cs =>
          match skipSpace cs with
          | ']' :: cs => some (array [], cs)
          | cs => (readItems fuel cs).map fun (items, rest) => (array items, rest)
      | '\x7b' :: cs =>
          match skipSpace cs with
          | '\x7d' :: cs => some (object [], cs)
          | cs => (readMembers fuel cs).map fun (members, rest) => (object members, rest)
      | cs => (readNumber cs).map fun (n, rest) => (number n, rest)

/-- Reads the items of an array up to its end. -/
def readItems : Nat → List Char → Option (List Json × List Char)
  | 0, _ => none
  | fuel + 1, cs =>
      match readValue fuel cs with
      | none => none
      | some (item, cs) =>
          match skipSpace cs with
          | ']' :: cs => some ([item], cs)
          | ',' :: cs => (readItems fuel cs).map fun (items, rest) => (item :: items, rest)
          | _ => none

/-- Reads the members of an object up to its end. -/
def readMembers : Nat → List Char → Option (List (String × Json) × List Char)
  | 0, _ => none
  | fuel + 1, cs =>
      match skipSpace cs with
      | '"' :: cs =>
          match readString cs with
          | none => none
          | some (name, cs) =>
              match skipSpace cs with
              | ':' :: cs =>
                  match readValue fuel cs with
                  | none => none
                  | some (value, cs) =>
                      let member := (String.ofList name, value)
                      match skipSpace cs with
                      | '\x7d' :: cs => some ([member], cs)
                      | ',' :: cs =>
                          (readMembers fuel cs).map fun (members, rest) => (member :: members, rest)
                      | _ => none
              | _ => none
      | _ => none

end

/-- Reads a whole text as one value. -/
def parse? (text : String) : Option Json :=
  let cs := text.toList
  match readValue (2 * cs.length + 1) cs with
  | some (value, rest) => if (skipSpace rest).isEmpty then some value else none
  | none => none

end CallAtlas.Json
