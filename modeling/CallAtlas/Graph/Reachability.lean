import CallAtlas.Graph.Basic

/-!
# Reachability

Everything that can be reached from an entity by following links one way, nearest
first. The start is never part of the answer, even where a cycle leads back to
it, and a depth limit bounds the number of steps.
-/

namespace CallAtlas.Graph

/-- A search under way. -/
structure Search where
  /-- Positions still to be expanded, with their distance. -/
  queue : List (Nat × Nat)
  /-- Which positions have been met. -/
  seen : Array Bool
  /-- Positions met, the last one first. -/
  found : List Nat
deriving Repr, Inhabited

/-- Meets a neighbour at a distance, unless it has been met. -/
def Search.meet (distance : Nat) (s : Search) (i : Nat) : Search :=
  if (s.seen[i]?).getD true then s
  else
    { queue := s.queue ++ [(i, distance)], seen := s.seen.setIfInBounds i true, found := i :: s.found }

/-- Expands positions until none is left, at most `fuel` of them. -/
def Search.run (g : Graph) (direction : Direction) (limit : Option Nat) : Nat → Search → Search
  | 0, s => s
  | fuel + 1, s =>
      match s.queue with
      | [] => s
      | (i, distance) :: queue =>
          let s := { s with queue }
          if limit.any (· ≤ distance) then Search.run g direction limit fuel s
          else
            Search.run g direction limit fuel
              ((g.neighbours direction i).foldl (Search.meet (distance + 1)) s)

/-- The positions that can be reached from `start`, nearest first. Every position
is expanded at most once, which bounds the search. -/
def reachable (g : Graph) (direction : Direction) (limit : Option Nat) (start : Nat) : List Nat :=
  let seen := (Array.replicate g.entityCount false).setIfInBounds start true
  (Search.run g direction limit (g.entityCount + 1)
    { queue := [(start, 0)], seen, found := [] }).found.reverse

end CallAtlas.Graph
