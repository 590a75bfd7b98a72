import CallAtlas.Script.Source

/-!
# Implied semicolons

A statement may end without a semicolon: at the end of the text, before a
closing brace, or at a line break after which the text cannot go on with the
same statement. Whether it can is decided by the next character alone, so a line
that starts with an opening bracket, an operator or a comma continues the line
before it, while `++`, `--` and a lone `!` start a new statement.

The typed languages and the plain one differ in small ways (`Source.endsTyped`,
`Source.endsPlain`); `Source.impliedEnd` chooses between them and looks past
comments.
-/

namespace CallAtlas.Script

/-- What has just been read where a semicolon may be implied. -/
structure Ending where
  /-- An expression has just been read, so an operator could go on with it. -/
  afterExpression : Bool
  /-- A function signature has just been read, so a body could follow. -/
  afterSignature : Bool := false

namespace Source

/-- The white space that counts when line breaks are looked for. -/
def isLineSpace (c : Char) : Bool :=
  c == ' ' || (9 ≤ c.toNat && c.toNat ≤ 13)

/-- The characters that break a line for implied semicolons. -/
def isLineBreak (c : Char) : Bool :=
  c == '\n' || c == '\u2028' || c == '\u2029'

/-- How a run of white space and comments ended. -/
inductive GapEnd where
  /-- A slash that starts no comment. -/
  | slash
  /-- Right after a block comment without a line break in it. -/
  | sameLine
  /-- At something else. -/
  | clear
deriving DecidableEq

/-- Skips white space and comments from `i` on. Without `through` the run ends
after the first block comment. `broken` says that a block comment of this run
held a line break. -/
def gapEnd (s : Source) (through : Bool) : Nat → Bool → Nat → GapEnd × Nat
  | 0, _, i => (.clear, i)
  | fuel + 1, broken, i =>
      let j := s.skipWhile isLineSpace i
      if s.isAt j '/' then
        if s.isAt (j + 1) '/' then
          s.gapEnd through fuel broken (s.skipWhile (!isLineBreak ·) (j + 2))
        else if s.isAt (j + 1) '*' then
          match s.blockCommentEnd? (j + 2) with
          | none => (.clear, s.size)
          | some k =>
              let broken := broken || (s.chars.extract j k).any isLineBreak
              if !through && !s.isAt k '/' then (if broken then .clear else .sameLine, k)
              else s.gapEnd through fuel broken k
        else (.slash, j)
      else (.clear, j)

/-- Is the word at `i` the operator `in` or `instanceof`, as far as letters
tell? -/
def isWordOperator (s : Source) (i : Nat) : Bool :=
  s.startsWith i ['i', 'n'] &&
    (!s.holdsAt (i + 2) Char.isAlpha ||
      (s.startsWith (i + 2) "stanceof".toList && !s.holdsAt (i + 10) Char.isAlpha))

/-- After a line break: does the character at `i` start a new statement, by the
rules that all languages share? -/
def startsAfresh (s : Source) (i : Nat) : Bool :=
  match s.at? i with
  | some '+' => s.isAt (i + 1) '+'
  | some '-' => s.isAt (i + 1) '-'
  | some '!' => !s.isAt (i + 1) '='
  | some 'i' => !s.isWordOperator i
  | some c => !"\x60,:;*%>=<?^|&/".contains c
  | none => true

/-- The first line break, end of text or closing brace from `i` on, in the plain
language. A comment is looked into when no expression has been read. -/
def endsPlainFrom (s : Source) (ending : Ending) : Nat → Nat → Bool
  | 0, _ => true
  | fuel + 1, i =>
      if s.size ≤ i then true
      else
        let (gap, j) := if s.isAt i '/' then s.gapEnd false s.size false i else (.sameLine, i)
        if gap = .slash then false
        else if gap = .clear && !ending.afterExpression && !s.isAt j ',' && !s.isAt j '=' then true
        else if s.isAt j '\x7d' then true
        else if s.holdsAt j isLineBreak then
          match s.gapEnd true s.size false (j + 1) with
          | (.slash, _) => false
          | (_, k) =>
              if s.isAt k '[' || s.isAt k '(' then false
              else if s.isAt k '.' then s.holdsAt (k + 1) Char.isDigit
              else s.startsAfresh k
        else if s.holdsAt j isLineSpace then s.endsPlainFrom ending fuel (j + 1)
        else false

/-- Is a semicolon implied at `i` in the plain language, comments apart? -/
def endsPlain (s : Source) (ending : Ending) (i : Nat) : Bool :=
  s.endsPlainFrom ending s.size i

/-- Is a semicolon implied at `i` in the typed languages, comments apart? A
closing brace before a colon belongs to a pattern with a type unless an
expression has been read; an opening bracket goes on with an expression and not
with a type. -/
def endsTyped (s : Source) (ending : Ending) (i : Nat) : Bool :=
  let j := s.skipWhile (fun c => isLineSpace c && c != '\n') i
  match s.at? j with
  | none => true
  | some '\x7d' =>
      let k := s.skipWhile isLineSpace (j + 1)
      if s.isAt k ':' then ending.afterExpression else true
  | some '\n' =>
      match s.gapEnd true s.size false (j + 1) with
      | (.slash, _) => false
      | (_, k) =>
          if s.isAt k '.' then false
          else if s.isAt k '\x7b' then !ending.afterSignature
          else if s.isAt k '(' || s.isAt k '[' then !ending.afterExpression
          else s.startsAfresh k
  | some _ => false

/-- Looks for an implied semicolon at `i` and after each comment that follows. -/
def impliedEndFrom (s : Source) (ending : Ending) : Nat → Nat → Bool
  | 0, _ => false
  | fuel + 1, i =>
      (if s.language.hasTypes then s.endsTyped ending i else s.endsPlain ending i) ||
        match s.commentEnd? (s.skipWhile isGap i) with
        | some k => s.impliedEndFrom ending fuel k
        | none => false

/-- Is a semicolon implied right after position `i`? -/
def impliedEnd (s : Source) (ending : Ending) (i : Nat) : Bool :=
  s.impliedEndFrom ending s.size i || s.size ≤ i

end Source

end CallAtlas.Script
