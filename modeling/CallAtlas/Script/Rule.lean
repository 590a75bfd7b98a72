import CallAtlas.Script.Node
import CallAtlas.Script.Terminator

/-!
# Grammar rules

A **rule** reads something from a position of a source text: it succeeds with a
value and the position after what it read, or it fails and nothing is read. The
position is always the end of a token, so that a line break before the next
token can still be seen; gaps and comments are skipped when the next token is
looked at.

Grammars are recursive, rules are not: a rule that needs another *goal* of the
grammar gets it from a parameter, and `Script.Reader` closes the circle with a
bound on the depth.
-/

namespace CallAtlas.Script

/-- A rule that reads an `α`. -/
abbrev Rule (α : Type) := ReaderT Source (StateT Nat Option) α

/-- How an expression may stand where it is read. -/
structure Setting where
  /-- A statement may end here by an implied semicolon. -/
  terminable : Bool := false
  /-- An arrow function may state its result type. -/
  typedArrows : Bool := true
  /-- The expression names a base class, so type arguments may end it. -/
  heritage : Bool := false

/-- The setting within brackets. -/
def Setting.inner : Setting := {}

/-- The setting of an expression that may end a statement. -/
def Setting.last : Setting := { terminable := true }

/-- What the recursive parts of the grammar read. -/
inductive Goal where
  | statement
  /-- A block of statements in braces. -/
  | block
  /-- One expression, without commas. -/
  | expression (setting : Setting)
  /-- An expression, or several with commas between them. -/
  | expressions (setting : Setting)
  /-- Operands joined by operators that bind at least as tightly as `level`. -/
  | operation (setting : Setting) (level : Nat)
  /-- An operand with its unary operators. -/
  | unary (setting : Setting)
  /-- A primary expression with the members, subscripts and calls that follow
  it. -/
  | chain (setting : Setting)
  /-- Something that can be assigned to. -/
  | pattern
  | type
  /-- A type operand: no union, no condition, no function type. -/
  | typeOperand
  /-- A markup element. -/
  | element
deriving Inhabited

/-- The recursive parts of the grammar, as rules get them. -/
abbrev Grammar := Goal → Rule Node

namespace Rule

variable {α β : Type}

/-- The source being read. -/
def source : Rule Source := read

/-- The end of what has been read. -/
def position : Rule Nat := get

/-- Does the source's language have types? -/
def typed : Rule Bool := return (← source).language.hasTypes

/-- Succeeds only in the typed languages. -/
def onlyTyped : Rule Unit := do guard (← typed)

/-- The position of the next token. -/
def nextStart : Rule Nat := return (← source).tokenStart (← position)

/-- The character the next token starts with. -/
def nextChar? : Rule (Option Char) := return (← source).at? (← nextStart)

/-- Reads `r` if it can be read. -/
def optionally (r : Rule α) : Rule (Option α) := (some <$> r) <|> pure none

/-- Could `r` be read next? Nothing is read. -/
def ahead (r : Rule α) : Rule Bool := fun s i => some ((r s i).isSome, i)

/-- Reads `r` as often as it can be read and moves on, at most `fuel` times. -/
def manyUpTo (r : Rule α) : Nat → Rule (List α)
  | 0 => pure []
  | fuel + 1 => fun s i =>
      match r s i with
      | some (a, j) => if j ≤ i then some ([a], j) else
          match manyUpTo r fuel s j with
          | some (as, k) => some (a :: as, k)
          | none => none
      | none => some ([], i)

/-- Reads `r` as often as it can be read. -/
def many (r : Rule α) : Rule (List α) := do manyUpTo r ((← source).size + 1)

/-- Extends a value step by step until no step applies, at most `fuel` times. -/
def growUpTo (step : α → Rule α) : Nat → α → Rule α
  | 0, a => pure a
  | fuel + 1, a => fun s i =>
      match step a s i with
      | some (b, j) => growUpTo step fuel b s j
      | none => some (a, i)

/-- Extends a value step by step until no step applies. -/
def grow (step : α → Rule α) (a : α) : Rule α := do growUpTo step ((← source).size + 1) a

/-! ### Tokens -/

/-- Reads the characters of `sign`, whatever follows them. -/
def symbol (sign : String) : Rule Unit := fun s i =>
  let j := s.tokenStart i
  if s.startsWith j sign.toList then some ((), j + sign.length) else none

/-- Reads `sign` if none of `others` follows it directly. -/
def symbolBut (sign others : String) : Rule Unit := fun s i =>
  let j := s.tokenStart i
  let k := j + sign.length
  if s.startsWith j sign.toList && !s.holdsAt k (others.contains ·) then some ((), k) else none

/-- Reads the sign of an assignment or a default. -/
def equals : Rule Unit := symbolBut "=" "=>"

/-- Reads the sign that opens a conditional's first branch. -/
def questionMark : Rule Unit := do
  let s ← source
  let j ← nextStart
  guard (s.isAt j '?' && !s.isAt (j + 1) '?' &&
    !(s.isAt (j + 1) '.' && !s.holdsAt (j + 2) Char.isDigit))
  set (j + 1)

/-- Reads the sign of an optional step of a member chain. -/
def optionalChain : Rule Unit := do
  let s ← source
  let j ← nextStart
  guard (s.startsWith j ['?', '.'] && !s.holdsAt (j + 2) Char.isDigit)
  set (j + 2)

/-- The next token, if it is a word. -/
def nextWord? : Rule (Option String) := fun s i =>
  let j := s.tokenStart i
  some ((s.wordEnd? j).map (s.slice j), i)

/-- Reads any word. -/
def word : Rule String := fun s i =>
  let j := s.tokenStart i
  (s.wordEnd? j).map fun k => (s.slice j k, k)

/-- Reads one given word. -/
def keyword (w : String) : Rule Unit := do guard ((← word) == w)

/-- Reads one of some given words. -/
def oneOfWords (ws : List String) : Rule String := do
  let w ← word
  guard (ws.contains w)
  return w

/-- Is the next token the word `w`? -/
def isNextWord (w : String) : Rule Bool := return (← nextWord?) == some w

/-- Is a semicolon implied here? -/
def impliedEnd (ending : Ending) : Rule Bool :=
  return (← source).impliedEnd ending (← position)

/-- Reads the end of a statement: a semicolon, or nothing where one is
implied. -/
def semicolon (ending : Ending) : Rule Unit := do
  if ← impliedEnd ending then pure () else symbol ";"

/-- Succeeds unless a statement that may end here does. -/
def continues (setting : Setting) : Rule Unit := do
  guard !(setting.terminable && (← impliedEnd ⟨true, false⟩))

/-! ### Nodes -/

/-- A node from position `start` to the end of what has been read. -/
def node (kind : Kind) (start : Nat) (children : List Node) : Rule Node := do
  let s ← source
  let stop ← position
  return .mk kind none (s.slice start stop) (s.lineAt start) (s.lineAt stop) children

/-- A node of a kind that nothing asks for. -/
def plain (label : String) (start : Nat) (children : List Node) : Rule Node :=
  node (.other label) start children

/-- Reads a word as a node of a given kind. -/
def wordAs (kind : Kind) : Rule Node := do
  let start ← nextStart
  let _ ← word
  node kind start []

/-- Reads an opening sign, any number of items with commas between them, and a
closing sign. An item may be missing where `holes` says so; otherwise only a
comma after the last item is allowed. -/
def listed (opening closing : String) (holes : Bool) (item : Rule Node) : Rule (List Node) := do
  symbol opening
  let first ← optionally item
  let rest ← many do
    guard (holes || first.isSome)
    symbol ","
    if holes then optionally item else some <$> item
  if !holes && first.isSome then
    let _ ← optionally (symbol ",")
  symbol closing
  return (first :: rest).filterMap id

/-- Reads one or more items with commas between them. -/
def commaSeparated (item : Rule Node) : Rule (List Node) := do
  let first ← item
  let rest ← many do symbol ","; item
  return first :: rest

end Rule

end CallAtlas.Script
