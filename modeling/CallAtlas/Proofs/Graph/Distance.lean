import Mathlib.Data.Nat.Find
import CallAtlas.Proofs.Graph.Invariant

/-!
# Paths and distances

A path follows links one way, from a fixed start, and is known by its length and
its end. The distance of a position is the length of a shortest path to it; a
position that no path reaches has none. Nothing here looks at how a search finds
its way: these are the notions that searches are measured against.
-/

namespace CallAtlas.Graph

/-- There is a path of this length from `start` to this position. -/
inductive Path (g : Graph) (d : Direction) (start : Nat) : Nat → Nat → Prop
  | nil : Path g d start 0 start
  | snoc {k i j : Nat} : Path g d start k i → g.Step d i j → Path g d start (k + 1) j

/-- The shortest path from `start` to a position has this length. -/
structure IsDistance (g : Graph) (d : Direction) (start i k : Nat) : Prop where
  path : g.Path d start k i
  le : ∀ m, g.Path d start m i → k ≤ m

variable {g : Graph} {d : Direction} {start i j k m : Nat}

/-- A path can also be extended at its start. -/
theorem Path.cons (h : g.Step d i start) (p : g.Path d start k j) : g.Path d i (k + 1) j := by
  induction p with
  | nil => exact .snoc .nil h
  | snoc _ hstep ih => exact .snoc ih hstep

theorem Path.eq_start (p : g.Path d start 0 i) : i = start := by
  cases p
  rfl

theorem Path.exists_isDistance (p : g.Path d start k i) :
    ∃ m ≤ k, g.IsDistance d start i m := by
  classical
  have hex : ∃ m, g.Path d start m i := ⟨k, p⟩
  exact ⟨Nat.find hex, Nat.find_min' hex p, Nat.find_spec hex, fun _ hm => Nat.find_min' hex hm⟩

theorem IsDistance.unique (hk : g.IsDistance d start i k) (hm : g.IsDistance d start i m) :
    k = m :=
  Nat.le_antisymm (hk.le m hm.path) (hm.le k hk.path)

theorem isDistance_start : g.IsDistance d start start 0 :=
  ⟨.nil, fun m _ => Nat.zero_le m⟩

/-- Only the start is at distance zero. -/
theorem IsDistance.pos (h : g.IsDistance d start i k) (hne : i ≠ start) : 1 ≤ k := by
  cases k with
  | zero => exact absurd h.path.eq_start hne
  | succ k => exact Nat.succ_le_succ (Nat.zero_le k)

end CallAtlas.Graph
