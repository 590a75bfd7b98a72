import CallAtlas.Script.Grammar.Statement

/-!
# Reading a script

`read` turns a source text into a tree. The recursive goals of the grammar are
tied together by `goal`, whose first argument bounds the depth; a text cannot
nest deeper than a fixed multiple of its length, so the bound that `read` passes
is never reached.

A text need not be one that can be read to its end. Its tree then holds the
statements before the one that fails, and an error for the rest.
-/

namespace CallAtlas.Script

/-- The goals of the grammar, with at most `depth` goals inside one another. -/
def goal : Nat → Grammar
  | 0, _ => failure
  | depth + 1, target =>
      let g := goal depth
      match target with
      | .statement => Rule.statement g
      | .block => Rule.block g
      | .expression setting => Rule.expression g setting
      | .expressions setting => Rule.expressions g setting
      | .operation setting level => Rule.operation g setting level
      | .unary setting => Rule.unary g setting
      | .chain setting => Rule.chain g setting
      | .pattern => Rule.pattern g
      | .type => Rule.type g
      | .typeOperand => Rule.typeOperand g
      | .element => Rule.element g

/-- A depth that no text of this size can nest beyond. -/
def depthBound (size : Nat) : Nat := 16 * (size + 4)

/-- Skips the line at the very start that names an interpreter. -/
def interpreterLine : Rule Unit := do
  let s ← Rule.source
  let i ← Rule.nextStart
  if s.startsWith i ['#', '!'] then set (s.skipWhile (· != '\n') i)

/-- Reads the rest of a text as an error. There may be nothing left. -/
def rest : Rule (List Node) := do
  let s ← Rule.source
  let start ← Rule.nextStart
  if start < s.size then
    set s.size
    return [← Rule.node .error start []]
  else return []

/-- Reads a whole text. -/
def program : Rule Node := do
  let start ← Rule.nextStart
  interpreterLine
  let statements ← Rule.many (goal (depthBound (← Rule.source).size) .statement)
  let unread ← rest
  Rule.plain "program" start (statements ++ unread)

/-- Reads a source text. -/
def read (language : Language) (text : String) : Node :=
  match program (Source.ofString language text) 0 with
  | some (tree, _) => tree
  | none => .mk .error none text 1 1 []

end CallAtlas.Script
