import CallAtlas.Script.Language
import CallAtlas.Text.Blank

/-!
# Source text

A source text laid out for reading: its characters by position, the line each
position lies on, and the language it is written in. This module holds what can
be said about a position without any grammar: which characters are blank, where
a comment ends, where the next token starts, and how far a word reaches.
-/

namespace CallAtlas.Script

/-- A source text prepared for reading. -/
structure Source where
  /-- The language the text is written in. -/
  language : Language
  /-- The characters by position. -/
  chars : Array Char
  /-- The line of each position, counted from one, the end of the text
  included. -/
  lines : Array Nat

namespace Source

/-- Lays out a text. -/
def ofString (language : Language) (text : String) : Source :=
  { language, chars := text.toList.toArray,
    lines := (text.foldl (fun (acc : Array Nat × Nat) c =>
        let line := if c == '\n' then acc.2 + 1 else acc.2
        (acc.1.push line, line)) (#[1], 1)).1 }

/-- The number of characters. -/
def size (s : Source) : Nat := s.chars.size

/-- The character at a position; past the end there is none. -/
def at? (s : Source) (i : Nat) : Option Char := s.chars[i]?

/-- Is the character at position `i` exactly `c`? -/
def isAt (s : Source) (i : Nat) (c : Char) : Bool := s.chars[i]? == some c

/-- Does the character at position `i` satisfy `p`? -/
def holdsAt (s : Source) (i : Nat) (p : Char → Bool) : Bool := (s.chars[i]?).any p

/-- The line of a position, counted from one. -/
def lineAt (s : Source) (i : Nat) : Nat := (s.lines[i]?).getD 1

/-- The text between two positions. -/
def slice (s : Source) (start stop : Nat) : String :=
  (s.chars.extract start stop).foldl String.push ""

/-- Do the characters `cs` stand at position `i`? -/
def startsWith (s : Source) (i : Nat) : List Char → Bool
  | [] => true
  | c :: cs => s.isAt i c && s.startsWith (i + 1) cs

/-- The first position from `i` on whose character fails `p`, or the end. -/
def skipWhile (s : Source) (p : Char → Bool) (i : Nat) : Nat :=
  if h : i < s.chars.size then
    if p s.chars[i] then s.skipWhile p (i + 1) else i
  else i
termination_by s.chars.size - i

/-! ### Blanks and comments -/

/-- The characters that may stand between any two tokens. -/
def isGap (c : Char) : Bool :=
  Text.isBlank c || c == '\uFEFF' || c == '\u2060' || c == '\u200B'

/-- The characters that end a line comment. -/
def endsComment (c : Char) : Bool :=
  c == '\n' || c == '\r' || c == '\u2028' || c == '\u2029'

/-- The position after the next `*/`, if there is one. -/
def blockCommentEnd? (s : Source) (i : Nat) : Option Nat :=
  if h : i < s.chars.size then
    if s.chars[i] == '*' && s.isAt (i + 1) '/' then some (i + 2)
    else s.blockCommentEnd? (i + 1)
  else none
termination_by s.chars.size - i

/-- The position after the comment that starts at `i`, if one does. -/
def commentEnd? (s : Source) (i : Nat) : Option Nat :=
  if s.isAt i '/' then
    if s.isAt (i + 1) '/' then some (s.skipWhile (!endsComment ·) (i + 2))
    else if s.isAt (i + 1) '*' then s.blockCommentEnd? (i + 2)
    else none
  else none

/-- Skips gaps and comments, at most `fuel` comments of them. -/
def tokenStartFrom (s : Source) : Nat → Nat → Nat
  | 0, i => s.skipWhile isGap i
  | fuel + 1, i =>
      let j := s.skipWhile isGap i
      match s.commentEnd? j with
      | some k => s.tokenStartFrom fuel k
      | none => j

/-- The position of the first token at or after `i`. A text cannot hold more
comments than characters, so the bound is never reached. -/
def tokenStart (s : Source) (i : Nat) : Nat := s.tokenStartFrom s.size i

/-! ### Words -/

/-- The characters that no word contains. -/
def isSpecial (c : Char) : Bool :=
  c.toNat ≤ 0x1F || isGap c || ":;\x60\"'@#.,|^&<=>+-*/\\%?!~()[]\x7b\x7d".contains c

/-- May the character start a word? -/
def isWordStart (c : Char) : Bool := !isSpecial c && !c.isDigit

/-- May the character continue a word? -/
def isWordPart (c : Char) : Bool := !isSpecial c

/-- Is the character a hexadecimal digit? -/
def isHexDigit (c : Char) : Bool :=
  c.isDigit || ('a' ≤ c && c ≤ 'f') || ('A' ≤ c && c ≤ 'F')

/-- The position after the character escape (a backslash, `u`, and four digits
or digits in braces) at `i`, if there is one. -/
def wordEscapeEnd? (s : Source) (i : Nat) : Option Nat :=
  if s.isAt i '\\' && s.isAt (i + 1) 'u' then
    if s.isAt (i + 2) '\x7b' then
      let j := s.skipWhile isHexDigit (i + 3)
      if i + 3 < j && s.isAt j '\x7d' then some (j + 1) else none
    else if (List.range 4).all fun k => s.holdsAt (i + 2 + k) isHexDigit then some (i + 6)
    else none
  else none

/-- The end of the word that is being read at `i`, with at most `fuel` escapes
still to come. -/
def wordEndFrom (s : Source) : Nat → Nat → Nat
  | 0, i => s.skipWhile isWordPart i
  | fuel + 1, i =>
      let j := s.skipWhile isWordPart i
      match s.wordEscapeEnd? j with
      | some k => s.wordEndFrom fuel k
      | none => j

/-- The end of the word that starts at `i`, if one does. -/
def wordEnd? (s : Source) (i : Nat) : Option Nat :=
  if s.holdsAt i isWordStart then some (s.wordEndFrom s.size (i + 1))
  else (s.wordEscapeEnd? i).map (s.wordEndFrom s.size)

end Source

end CallAtlas.Script
