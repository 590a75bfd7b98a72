import Mathlib
import CallAtlas.Proofs.Graph.Insertion
import CallAtlas.Proofs.Layout.Placement

/-!
# The number of crossings that a layout reports

A layout reports the number its crossing reduction arrived at. Whoever looks at the
positions alone can count again, pair by pair: the stages and heights of both ends
of every link are there. The two numbers agree, unless there is nothing to lay out:
the layout of no entities says nothing about crossings, although it has none.
-/

namespace CallAtlas

variable {α : Type} [Coordinate α]

namespace Layout

/-- The height of every entity of a graph, as the positions have it. -/
def heightsOf (l : Layout α) (g : Graph) : Heights α :=
  g.entities.map fun e => ((l.position? e.id).map (·.y)).getD (Coordinate.ofNat 0)

/-- The stage of the entity at a position of the graph, as the positions have it. -/
def stageOf (l : Layout α) (g : Graph) (i : Nat) : Nat :=
  ((l.position? (g.node i).id).map (·.stageIndex)).getD 0

/-- The number of crossing pairs of links of a graph, counted over the positions. -/
def recount (l : Layout α) (g : Graph) : Nat :=
  countCrossings (l.heightsOf g) (g.stagedLinks (l.stageOf g))

end Layout

/-- The ends of a staged link are those of the link. -/
theorem StagedLink.ends_make (source target sourceStage targetStage : Nat) :
    let l := make source target sourceStage targetStage
    (l.low = source ∧ l.high = target) ∨ (l.low = target ∧ l.high = source) := by
  unfold make
  split
  · exact Or.inl ⟨rfl, rfl⟩
  · exact Or.inr ⟨rfl, rfl⟩

namespace Graph

theorem WellFormed.heightOf_heightsOf_layout {g : Graph} (hg : g.WellFormed)
    (s : LayoutSettings α) {i : Nat} (hi : i < g.entityCount) :
    heightOf ((g.layout s).heightsOf g) i = heightOf (g.finalHeights s) i := by
  conv_lhs => unfold heightOf Layout.heightsOf
  rw [Array.getElem?_map, getElem?_entities hi, Option.map_some, Option.getD_some,
    hg.position?_layout s hi]
  rfl

theorem WellFormed.stageOf_layout {g : Graph} (hg : g.WellFormed) (s : LayoutSettings α) {i : Nat}
    (hi : i < g.entityCount) : (g.layout s).stageOf g i = g.staging.stage i := by
  unfold Layout.stageOf
  rw [hg.position?_layout s hi]
  rfl

theorem WellFormed.ends_lt {g : Graph} (hg : g.WellFormed) {l : Link} (hl : l ∈ g.links.toList) :
    l.source < g.entityCount ∧ l.target < g.entityCount :=
  ⟨hg.inBounds l (Array.mem_toList_iff.mp hl) .downstream,
    hg.inBounds l (Array.mem_toList_iff.mp hl) .upstream⟩

theorem WellFormed.ends_lt_of_mem_stagedLinks {g : Graph} (hg : g.WellFormed) {stage : Nat → Nat}
    {a : StagedLink} (ha : a ∈ g.stagedLinks stage) :
    a.low < g.entityCount ∧ a.high < g.entityCount := by
  obtain ⟨l, hl, rfl⟩ := List.mem_map.mp ha
  obtain ⟨hs, ht⟩ := hg.ends_lt hl
  rcases StagedLink.ends_make l.source l.target (stage l.source) (stage l.target) with
    ⟨hlow, hhigh⟩ | ⟨hlow, hhigh⟩
  · rw [hlow, hhigh]
    exact ⟨hs, ht⟩
  · rw [hlow, hhigh]
    exact ⟨ht, hs⟩

/-- Counting over the positions is counting at the final heights. -/
theorem WellFormed.recount_layout {g : Graph} (hg : g.WellFormed) (s : LayoutSettings α) :
    (g.layout s).recount g = countCrossings (g.finalHeights s) (g.stagedLinks g.staging.stage) := by
  have hlinks : g.stagedLinks ((g.layout s).stageOf g) = g.stagedLinks g.staging.stage := by
    refine List.map_congr_left fun l hl => ?_
    obtain ⟨hs, ht⟩ := hg.ends_lt hl
    rw [hg.stageOf_layout s hs, hg.stageOf_layout s ht]
  unfold Layout.recount
  rw [hlinks]
  apply countCrossings_congr
  intro a ha
  have hends := hg.ends_lt_of_mem_stagedLinks ha
  exact ⟨hg.heightOf_heightsOf_layout s hends.1, hg.heightOf_heightsOf_layout s hends.2⟩

theorem length_stagedLinks (g : Graph) (stage : Nat → Nat) :
    (g.stagedLinks stage).length = g.edgeCount := by
  unfold stagedLinks
  rw [List.length_map]
  exact Array.length_toList

/-- A layout of something reports what its positions show. -/
theorem WellFormed.crossingCount_layout {g : Graph} (hg : g.WellFormed) (hsymm : SymmetricSign α)
    {s : LayoutSettings α} (hlimit : g.edgeCount ≤ s.crossingEdgeLimit)
    (hne : g.isEmpty = false) :
    (g.layout s).metrics.crossingCount = some ((g.layout s).recount g) := by
  have hreduction : g.reduction? s = some (reduceCrossings (g.stagedLinks g.staging.stage)
      (g.firstHeights s) (g.stagedCanvas s).slots s.crossingMaxPasses) := by
    unfold reduction?
    rw [length_stagedLinks, if_pos hlimit]
  have hexact := reduceCrossings_exact hsymm (g.stagedLinks g.staging.stage) (g.firstHeights s)
    (g.stagedCanvas_slots_proper s) s.crossingMaxPasses
  have hheights : g.finalHeights s = (reduceCrossings (g.stagedLinks g.staging.stage)
      (g.firstHeights s) (g.stagedCanvas s).slots s.crossingMaxPasses).heights := by
    unfold finalHeights
    rw [hreduction]
    rfl
  rw [hg.recount_layout, hheights, ← hexact.after_eq, layout_of_nonempty hne]
  change (g.reduction? s).map (·.after) = _
  rw [hreduction]
  rfl

/-- **The crossings reported are the crossings there are.** For all links, heights,
slots that name no entity twice, and limits on the passes, a reduction reports the
full counts at the heights it started from and at those it arrived at, and every
mirroring that it kept removed a crossing. Whatever slots have been tried, in
whatever order, no more crossings are taken off the running number than it has. So
a layout within the limit reports what a count over its positions gives, unless it
has nothing to lay out: then it reports nothing. -/
theorem crossings_recounted (hsymm : SymmetricSign α) :
    (∀ (links : List StagedLink) (ys : Heights α) (slots : List Slot) (maxPasses : Nat),
      (∀ slot ∈ slots, slot.Proper ys.size) →
      (reduceCrossings links ys slots maxPasses).Exact links ys maxPasses ∧
      ∀ tried : List Slot, (∀ slot ∈ tried, slot ∈ slots) → ∀ slot ∈ slots,
        let r := tried.foldl (Reduction.trySlot links) (.start links ys)
        let touched := touchedLinks r.incident slot
        localCrossings r.heights links (setMarks true r.marks touched) touched ≤ r.current) ∧
    ∀ (g : Graph) (s : LayoutSettings α), g.WellFormed → g.edgeCount ≤ s.crossingEdgeLimit →
      (g.layout s).metrics.crossingCount =
        if g.isEmpty then none else some ((g.layout s).recount g) := by
  refine ⟨?_, ?_⟩
  · intro links ys slots maxPasses hslots
    refine ⟨reduceCrossings_exact hsymm links ys hslots maxPasses, ?_⟩
    intro tried hsub slot hslot
    have hexact := (Reduction.exact_start links ys).foldl_trySlot hsymm
      fun slot h => hslots slot (hsub slot h)
    exact hexact.ready.localCrossings_le hsymm hexact.counts (hexact.size.symm ▸ hslots slot hslot)
  · intro g s hg hlimit
    cases hempty : g.isEmpty with
    | true =>
        rw [layout_of_isEmpty hempty]
        rfl
    | false => exact hg.crossingCount_layout hsymm hlimit hempty

/-- Two links that cross, in a slot whose mirroring parts them, and the ring. -/
theorem crossings_recounted_ring :
    let links : List StagedLink := [.make 3 0 1 0, .make 2 1 1 0]
    let ys : Heights ℝ := #[10, 20, 10, 20]
    let outcome := reduceCrossings links ys [[[2, 3]]] 4
    outcome.before = 1 ∧ outcome.after = countCrossings outcome.heights links ∧
      ring.edgeCount ≤ (LayoutSettings.standard (α := ℝ)).crossingEdgeLimit ∧
      (ring.layout (LayoutSettings.standard (α := ℝ))).metrics.crossingCount =
        some ((ring.layout (LayoutSettings.standard (α := ℝ))).recount ring) := by
  intro links ys outcome
  have hslots : ∀ slot ∈ [[[2, 3]]], Slot.Proper ys.size slot := by
    intro slot h
    rw [List.mem_singleton.mp h]
    exact ⟨by decide, by decide⟩
  have hring : ring.edgeCount ≤ (LayoutSettings.standard (α := ℝ)).crossingEdgeLimit := by
    have hcount : ring.edgeCount = 6 := by decide +kernel
    rw [hcount]
    exact of_decide_eq_true rfl
  have hexact := ((crossings_recounted symmetricSign_real).1 links ys _ 4 hslots).1
  refine ⟨?_, hexact.after_eq, hring, ?_⟩
  · rw [hexact.before_eq]
    simp [links, ys, countCrossings, StagedLink.make, StagedLink.crosses, heightOf,
      Coordinate.less, Coordinate.ofNat]
    norm_num
  · have hne : ring.isEmpty = false := by decide +kernel
    rw [(crossings_recounted symmetricSign_real).2 ring _ (wellFormed_ofInsertions _ _) hring, hne]
    rfl

/-- A layout of no entities reports no number, although a count gives zero and no
limit is exceeded. -/
theorem crossingCount_of_nothing :
    let g : Graph := ofInsertions [] []
    let s : LayoutSettings ℝ := .standard
    g.WellFormed ∧ g.edgeCount ≤ s.crossingEdgeLimit ∧ (g.layout s).recount g = 0 ∧
      (g.layout s).metrics.crossingCount ≠ some ((g.layout s).recount g) := by
  intro g s
  have hempty : g.isEmpty = true := by decide +kernel
  refine ⟨wellFormed_ofInsertions [] [], Nat.zero_le _, rfl, ?_⟩
  rw [layout_of_isEmpty hempty]
  exact Option.some_ne_none _ ∘ Eq.symm

end Graph

end CallAtlas
