import CallAtlas.Json.Basic

/-!
# Writing JSON

`Json.pretty` puts every item and member on a line of its own, two spaces deeper
than what holds it; an empty array or object stays on one line. `Json.compact`
writes no space at all. In a string only quotes, backslashes and control
characters are escaped.
-/

namespace CallAtlas.Json

/-- A lower-case hexadecimal digit. -/
def hexDigit (n : Nat) : Char :=
  if n < 10 then Char.ofNat (48 + n) else Char.ofNat (87 + n)

/-- One character of a string as it is written. -/
def escape (c : Char) : List Char :=
  if c = '"' then ['\\', '"']
  else if c = '\\' then ['\\', '\\']
  else if 0x20 ≤ c.toNat then [c]
  else if c = '\x08' then ['\\', 'b']
  else if c = '\x0c' then ['\\', 'f']
  else if c = '\n' then ['\\', 'n']
  else if c = '\r' then ['\\', 'r']
  else if c = '\t' then ['\\', 't']
  else ['\\', 'u', '0', '0', hexDigit (c.toNat / 16), hexDigit (c.toNat % 16)]

/-- A string as it is written, quotes included. -/
def quoted (s : String) : List Char :=
  '"' :: s.toList.flatMap escape ++ ['"']

/-- A number as it is written. -/
def numberText (n : JsonNumber) : List Char :=
  (if n.negative then ['-'] else []) ++ Nat.toDigits 10 n.digits ++
    (if n.whole then [] else 'e' :: (toString n.exponent).toList)

/-- A line break and the indentation of a given depth. -/
def newLine (depth : Nat) : List Char := '\n' :: List.replicate (2 * depth) ' '

mutual

/-- A value as it is written at a given depth. -/
def prettyAt (depth : Nat) : Json → List Char
  | null => "null".toList
  | bool true => "true".toList
  | bool false => "false".toList
  | number n => numberText n
  | string s => quoted s
  | array [] => ['[', ']']
  | array (item :: items) =>
      '[' :: newLine (depth + 1) ++ prettyAt (depth + 1) item ++ prettyItems (depth + 1) items ++
        newLine depth ++ [']']
  | object [] => ['\x7b', '\x7d']
  | object ((name, value) :: members) =>
      '\x7b' :: newLine (depth + 1) ++ quoted name ++ [':', ' '] ++ prettyAt (depth + 1) value ++
        prettyMembers (depth + 1) members ++ newLine depth ++ ['\x7d']

/-- The items after the first. -/
def prettyItems (depth : Nat) : List Json → List Char
  | [] => []
  | item :: items =>
      ',' :: newLine depth ++ prettyAt depth item ++ prettyItems depth items

/-- The members after the first. -/
def prettyMembers (depth : Nat) : List (String × Json) → List Char
  | [] => []
  | (name, value) :: members =>
      ',' :: newLine depth ++ quoted name ++ [':', ' '] ++ prettyAt depth value ++
        prettyMembers depth members

end

/-- A value over several lines. -/
def pretty (j : Json) : String := String.ofList (prettyAt 0 j)

mutual

/-- A value without spaces. -/
def compactChars : Json → List Char
  | null => "null".toList
  | bool true => "true".toList
  | bool false => "false".toList
  | number n => numberText n
  | string s => quoted s
  | array [] => ['[', ']']
  | array (item :: items) => '[' :: compactChars item ++ compactItems items ++ [']']
  | object [] => ['\x7b', '\x7d']
  | object ((name, value) :: members) =>
      '\x7b' :: quoted name ++ ':' :: compactChars value ++ compactMembers members ++ ['\x7d']

/-- The items after the first, without spaces. -/
def compactItems : List Json → List Char
  | [] => []
  | item :: items => ',' :: compactChars item ++ compactItems items

/-- The members after the first, without spaces. -/
def compactMembers : List (String × Json) → List Char
  | [] => []
  | (name, value) :: members =>
      ',' :: quoted name ++ ':' :: compactChars value ++ compactMembers members

end

/-- A value on one line. -/
def compact (j : Json) : String := String.ofList (compactChars j)

end CallAtlas.Json
