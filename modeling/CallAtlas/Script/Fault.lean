import CallAtlas.Script.Sweep

/-!
# Faults of a text

A tree shows what was wrong with its text: text that could not be read is a node of its own,
and so is a token that is not there. What stands inside such a node is not counted again.
-/

namespace CallAtlas.Script

mutual

/-- Is a node a fault, or one below it? -/
def Node.hasFault : Node → Bool
  | .mk kind _ _ _ _ children => kind.isFault || anyFault children

/-- Is one of some nodes a fault, or one below them? -/
def anyFault : List Node → Bool
  | [] => false
  | part :: parts => part.hasFault || anyFault parts

end

/-- Counts the faults among the nodes on a stack, whose top is its end, and below them, going
through at most `fuel` nodes. Only where there are faults are the parts of a node looked at. -/
def countFaults : Nat → Array Node → Nat → Nat
  | 0, _, count => count
  | fuel + 1, stack, count =>
      match stack.back? with
      | none => count
      | some n =>
          if n.kind.isFault then countFaults fuel stack.pop (count + 1)
          else if !n.hasFault then countFaults fuel stack.pop count
          else countFaults fuel (stack.pop ++ n.children) count

/-- The number of faults of a tree. -/
def Node.faultCount (tree : Node) : Nat := countFaults tree.size #[tree] 0

end CallAtlas.Script
