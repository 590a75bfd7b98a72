import CallAtlas.Graph.Basic

/-!
# Stages

The stage of an entity is zero if it calls nothing, and otherwise one more than
the highest stage among what it calls. Where calls form a cycle, a link back to
an entity whose stage is still being worked out closes the cycle: it is counted
and otherwise passed over.

Entities are taken in the order of their ids, and so are the callees of each, so
the stages do not depend on the order in which the graph was built.
-/

namespace CallAtlas

/-- How far the work on an entity has come. -/
inductive Mark where
  | untouched
  | underWay
  | done
deriving DecidableEq, Repr, Inhabited

/-- The stages worked out so far. -/
structure Staging where
  /-- The stage of each position. -/
  stages : Array Nat
  marks : Array Mark
  /-- Links found to close a cycle. -/
  cycleEdges : Nat
deriving Repr, Inhabited

namespace Staging

/-- No stage worked out yet. -/
def start (n : Nat) : Staging :=
  { stages := Array.replicate n 0, marks := Array.replicate n .untouched, cycleEdges := 0 }

/-- The stage of a position. -/
def stage (s : Staging) (i : Nat) : Nat := (s.stages[i]?).getD 0

/-- How far the work on a position has come. -/
def mark (s : Staging) (i : Nat) : Mark := (s.marks[i]?).getD .done

/-- The work on a position begins. -/
def enter (s : Staging) (i : Nat) : Staging :=
  { s with marks := s.marks.setIfInBounds i .underWay }

/-- The work on a position ends. -/
def leave (s : Staging) (i stage : Nat) : Staging :=
  { s with
    stages := s.stages.setIfInBounds i stage, marks := s.marks.setIfInBounds i .done }

/-- The highest stage and one, or zero if there is none. -/
def count (s : Staging) : Nat := s.stages.foldl (fun m stage => max m (stage + 1)) 0

/-- Works out the stage of position `i`, whose callees `callees` gives. The
positions under way are distinct, so `fuel` need not exceed their number. -/
def visit (callees : Nat → List Nat) : Nat → Nat → Staging → Staging
  | 0, _, s => s
  | fuel + 1, i, s =>
      let step (acc : Staging × Nat) (d : Nat) : Staging × Nat :=
        match acc.1.mark d with
        | .done => (acc.1, max acc.2 (acc.1.stage d))
        | .underWay => ({ acc.1 with cycleEdges := acc.1.cycleEdges + 1 }, acc.2)
        | .untouched =>
            let s := visit callees fuel d acc.1
            (s, max acc.2 (s.stage d))
      let (s, highest) := (callees i).foldl step (s.enter i, 0)
      s.leave i (if (callees i).isEmpty then 0 else highest + 1)

/-- Works out the stage of position `i` unless that has been done. -/
def visitRoot (callees : Nat → List Nat) (n : Nat) (s : Staging) (i : Nat) : Staging :=
  if s.mark i = .untouched then visit callees (n + 1) i s else s

end Staging

/-- The stages of all entities of a graph. -/
def Graph.staging (g : Graph) : Staging :=
  let callees (i : Nat) : List Nat := g.sortedById (g.neighbours .downstream i)
  (g.sortedById (List.range g.entityCount)).foldl (Staging.visitRoot callees g.entityCount)
    (Staging.start g.entityCount)

end CallAtlas
