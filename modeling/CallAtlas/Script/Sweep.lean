import CallAtlas.Script.Function

/-!
# Sweeping over a tree

A **sweep** meets every node of a tree without any recursion over it, so that a deeply
nested text costs no deep calls. The nodes still to be met are on a stack: the one on top
is met next, and its parts take its place, the first one on top.
-/

namespace CallAtlas.Script

mutual

/-- The number of nodes of a tree. -/
def Node.size : Node → Nat
  | .mk _ _ _ _ _ children => sizeOfParts children + 1

/-- The number of nodes of some trees. -/
def sizeOfParts : List Node → Nat
  | [] => 0
  | part :: parts => part.size + sizeOfParts parts

end

/-- The parts of a node as they are met. -/
def Visit.parts (v : Visit) : List Visit :=
  v.node.children.zipIdx.map fun (part, index) =>
    { node := part, binding := v.node.bindingAt v.binding index,
      enclosing := v.identity?.or v.enclosing }

/-- Meets the nodes on a stack, whose top is its end, and those below them, at most `fuel`
of them. -/
def sweep {σ : Type} (meet : σ → Visit → σ) : Nat → Array Visit → σ → σ
  | 0, _, s => s
  | fuel + 1, stack, s =>
      match stack.back? with
      | none => s
      | some v => sweep meet fuel (stack.pop ++ v.parts.reverse) (meet s v)

/-- Meets every node of a tree. -/
def Node.sweep {σ : Type} (tree : Node) (meet : σ → Visit → σ) (s : σ) : σ :=
  Script.sweep meet tree.size #[{ node := tree, binding := none, enclosing := none }] s

end CallAtlas.Script
