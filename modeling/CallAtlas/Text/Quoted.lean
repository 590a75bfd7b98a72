import CallAtlas.Text.Lowercase
import CallAtlas.Text.PrintableTable

/-!
# Quoted text

A text between double quotes in which every character can be seen: the quote, the
backslash and the common controls by a letter, and whatever else would not show
by its number in braces.
-/

namespace CallAtlas.Text

/-- Can the character be shown as itself? -/
def isShown (c : Char) : Bool :=
  if c.toNat < 0x7F then 0x20 ≤ c.toNat else !inRanges hiddenRanges c.toNat

/-- One character as a quoted text shows it. -/
def shownChar (c : Char) : List Char :=
  if c == '"' then ['\\', '"']
  else if c == '\\' then ['\\', '\\']
  else if c == '\t' then ['\\', 't']
  else if c == '\r' then ['\\', 'r']
  else if c == '\n' then ['\\', 'n']
  else if c == '\x00' then ['\\', '0']
  else if isShown c then [c]
  else ['\\', 'u', '\x7b'] ++ Nat.toDigits 16 c.toNat ++ ['\x7d']

/-- A text between quotes, every character made visible. -/
def quoted (s : String) : String :=
  String.ofList ('"' :: s.toList.flatMap shownChar ++ ['"'])

end CallAtlas.Text
