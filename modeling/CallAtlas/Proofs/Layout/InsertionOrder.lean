import Mathlib
import CallAtlas.Proofs.Layout.Recount
import CallAtlas.Proofs.Layout.Renaming
import CallAtlas.Proofs.Snapshot.RoundTrip

/-!
# The layout does not show the order of insertion

Graphs with the same calls are the same graph with its positions renamed, and every
part of the layout follows the renaming. What is left is the crossing reduction, a
search that is driven by a running number of crossings and works on links in the
order they were made.

The number of crossings does not depend on that order, and the search looks at
nothing else: trying a slot is mirroring it and counting again
(`Reduction.Exact.trySlot_eq`). So two reductions over renamed positions, with their links
in whatever order, take every decision alike (`Reduction.RenamedBy.trySlot`), pass
after pass.
-/

namespace CallAtlas

variable {α : Type} [Coordinate α]

/-! ### Crossings at renamed positions -/

/-- A link between other positions. -/
def StagedLink.rename (f : Nat → Nat) (l : StagedLink) : StagedLink :=
  { l with low := f l.low, high := f l.high }

theorem StagedLink.rename_make (f : Nat → Nat) (source target sourceStage targetStage : Nat) :
    (make source target sourceStage targetStage).rename f =
      make (f source) (f target) sourceStage targetStage := by
  unfold make
  split <;> rfl

section

variable {n : Nat} {π : Renaming n} {ys ys' : Heights α} {links links' : List StagedLink}

theorem Renaming.Relabels.heightOf_eq (h : π.Relabels ys ys') (i : Nat) :
    heightOf ys' (π i) = heightOf ys i := by
  unfold heightOf
  rw [h i]

theorem countCrossings_rename (h : π.Relabels ys ys') (links : List StagedLink) :
    countCrossings ys' (links.map (StagedLink.rename π)) = countCrossings ys links := by
  have hcrosses : ∀ a b : StagedLink,
      (a.rename π).crosses (b.rename π) ys' = a.crosses b ys := by
    intro a b
    unfold StagedLink.crosses StagedLink.rename
    dsimp only
    rw [h.heightOf_eq, h.heightOf_eq, h.heightOf_eq, h.heightOf_eq]
  induction links with
  | nil => rfl
  | cons a links ih =>
      rw [List.map_cons, countCrossings, countCrossings, ih, List.countP_map]
      congr 1
      exact List.countP_congr fun b _ => by rw [Function.comp_apply, hcrosses]

/-- The number of crossings is the same at renamed positions, whatever order the
links come in. -/
theorem countCrossings_eq_of_renamed (hsymm : SymmetricSign α)
    (hlinks : links'.Perm (links.map (StagedLink.rename π))) (h : π.Relabels ys ys') :
    countCrossings ys' links' = countCrossings ys links :=
  (countCrossings_perm hsymm ys' hlinks).trans (countCrossings_rename h links)

/-! ### Mirroring at renamed positions -/

theorem Renaming.Relabels.mirrorRun (h : π.Relabels ys ys') (run : List Nat) :
    π.Relabels (CallAtlas.mirrorRun ys run) (CallAtlas.mirrorRun ys' (run.map π)) := by
  have hentries : ((run.map π).zip (run.map π).reverse).map (fun p => (p.1, heightOf ys' p.2)) =
      ((run.zip run.reverse).map fun p => (p.1, heightOf ys p.2)).map fun e => (π e.1, e.2) := by
    rw [← List.map_reverse, List.zip_map, List.map_map, List.map_map]
    refine List.map_congr_left fun p _ => ?_
    simp only [Function.comp_apply, Prod.map, h.heightOf_eq]
  rw [mirrorRun_eq, mirrorRun_eq, hentries]
  exact h.writeAll _

theorem Renaming.Relabels.mirrorSlot (h : π.Relabels ys ys') (slot : Slot) :
    π.Relabels (CallAtlas.mirrorSlot ys slot)
      (CallAtlas.mirrorSlot ys' (slot.rename π)) := by
  unfold CallAtlas.mirrorSlot Slot.rename
  rw [List.foldl_map]
  exact List.foldl_rel (r := π.Relabels) h fun run _ ys ys' hys => hys.mirrorRun run

theorem Slot.Proper.rename {slot : Slot} (h : slot.Proper n) :
    (slot.rename π).Proper n := by
  have hflatten : (slot.rename π).flatten = slot.flatten.map π := List.map_flatten.symm
  refine ⟨?_, ?_⟩
  · rw [hflatten]
    exact h.nodup.map π.injective
  · intro j hj
    rw [hflatten] at hj
    obtain ⟨i, hi, rfl⟩ := List.mem_map.mp hj
    exact (π.lt_iff i).mpr (h.lt i hi)

/-! ### Reductions at renamed positions -/

namespace Reduction

/-- Two reductions have come equally far, at renamed positions. -/
structure RenamedBy (π : Renaming n) (r r' : Reduction α) : Prop where
  heights : π.Relabels r.heights r'.heights
  current_eq : r'.current = r.current
  reversals_eq : r'.reversals = r.reversals

variable {r r' : Reduction α} {before before' : Nat}

/-- **One slot is tried alike.** -/
theorem RenamedBy.trySlot (hsymm : SymmetricSign α)
    (hlinks : links'.Perm (links.map (StagedLink.rename π))) (h : RenamedBy π r r')
    (hr : r.Exact links n before) (hr' : r'.Exact links' n before') {slot : Slot}
    (hslot : slot.Proper n) :
    RenamedBy π (r.trySlot links slot) (r'.trySlot links' (slot.rename π)) := by
  have hmirrored := h.heights.mirrorSlot slot
  have hcount := countCrossings_eq_of_renamed hsymm hlinks hmirrored
  have hslot' : (slot.rename π).Proper n := hslot.rename
  rw [hr.trySlot_eq hsymm hslot, hr'.trySlot_eq hsymm hslot', hcount, h.current_eq]
  split
  · exact ⟨hmirrored, rfl, congrArg (· + 1) h.reversals_eq⟩
  · exact h

theorem RenamedBy.foldl_trySlot (hsymm : SymmetricSign α)
    (hlinks : links'.Perm (links.map (StagedLink.rename π))) {slots : List Slot}
    (hslots : ∀ slot ∈ slots, slot.Proper n) (h : RenamedBy π r r')
    (hr : r.Exact links n before) (hr' : r'.Exact links' n before') :
    RenamedBy π (slots.foldl (Reduction.trySlot links) r)
      ((slots.map (Slot.rename π)).foldl (Reduction.trySlot links') r') := by
  induction slots generalizing r r' with
  | nil => exact h
  | cons slot slots ih =>
      have hslot := hslots slot List.mem_cons_self
      exact ih (fun slot hmem => hslots slot (List.mem_cons_of_mem _ hmem))
        (h.trySlot hsymm hlinks hr hr' hslot) (hr.trySlot hsymm hslot)
        (hr'.trySlot hsymm hslot.rename)

/-- **Whole passes are made alike**, and as many of them: a pass is the last one if
no crossing is left or nothing was kept, and in that the reductions agree. -/
theorem RenamedBy.passes (hsymm : SymmetricSign α)
    (hlinks : links'.Perm (links.map (StagedLink.rename π))) {slots : List Slot}
    (hslots : ∀ slot ∈ slots, slot.Proper n) (fuel made : Nat) (h : RenamedBy π r r')
    (hr : r.Exact links n before) (hr' : r'.Exact links' n before') :
    RenamedBy π (Reduction.passes links slots fuel made r).1
        (Reduction.passes links' (slots.map (Slot.rename π)) fuel made r').1 ∧
      (Reduction.passes links' (slots.map (Slot.rename π)) fuel made r').2 =
        (Reduction.passes links slots fuel made r).2 := by
  have hslots' : ∀ slot ∈ slots.map (Slot.rename π), slot.Proper n :=
    List.forall_mem_map.mpr fun slot hmem => (hslots slot hmem).rename
  induction fuel generalizing made r r' with
  | zero => exact ⟨h, rfl⟩
  | succ fuel ih =>
      have hnext := h.foldl_trySlot hsymm hlinks hslots hr hr'
      rw [Reduction.passes, Reduction.passes, h.current_eq]
      split
      · exact ⟨h, rfl⟩
      · dsimp only
        rw [hnext.reversals_eq, h.reversals_eq]
        split
        · exact ⟨hnext, rfl⟩
        · exact ih (made + 1) hnext (hr.foldl_trySlot hsymm hslots)
            (hr'.foldl_trySlot hsymm hslots')

end Reduction

/-- Two reductions came out alike, at renamed positions. -/
structure ReductionOutcome.RenamedBy (π : Renaming n) (o o' : ReductionOutcome α) : Prop where
  heights : π.Relabels o.heights o'.heights
  before_eq : o'.before = o.before
  after_eq : o'.after = o.after
  reversals_eq : o'.reversals = o.reversals
  passes_eq : o'.passes = o.passes

theorem reduceCrossings_renamedBy (hsymm : SymmetricSign α)
    (hlinks : links'.Perm (links.map (StagedLink.rename π))) (h : π.Relabels ys ys')
    (hsize : ys.size = n) (hsize' : ys'.size = n) {slots : List Slot}
    (hslots : ∀ slot ∈ slots, slot.Proper n) (maxPasses : Nat) :
    ReductionOutcome.RenamedBy π (reduceCrossings links ys slots maxPasses)
      (reduceCrossings links' ys' (slots.map (Slot.rename π)) maxPasses) := by
  have hcount := countCrossings_eq_of_renamed hsymm hlinks h
  have hstart : Reduction.RenamedBy π (.start links ys) (.start links' ys') := ⟨h, hcount, rfl⟩
  have hexact := Reduction.exact_start links ys
  have hexact' := Reduction.exact_start links' ys'
  rw [hsize] at hexact
  rw [hsize'] at hexact'
  obtain ⟨hlast, hpasses⟩ := hstart.passes hsymm hlinks hslots
    (min maxPasses (countCrossings ys links + 1)) 0 hexact hexact'
  have hfuel : min maxPasses (countCrossings ys' links' + 1) =
      min maxPasses (countCrossings ys links + 1) := by rw [hcount]
  unfold reduceCrossings
  dsimp only
  rw [Reduction.current_start, Reduction.current_start, hfuel]
  exact ⟨hlast.heights, hcount, hlast.current_eq, hlast.reversals_eq, hpasses⟩

end

/-! ### Whole layouts -/

/-- Two layouts show the same drawing and say the same about it. The mean length of
the links is left out: it is summed in the order the links were made, and rounding
depends on the order of a sum. -/
structure Layout.SameDrawing (l l' : Layout α) : Prop where
  positions_eq : l'.positions = l.positions
  groups_eq : l'.groups = l.groups
  metrics_eq : { l'.metrics with meanEdgeLength := l.metrics.meanEdgeLength } = l.metrics

namespace Graph

namespace RenamedBy

variable {g g' : Graph} {π : Renaming g.entityCount} (h : g.RenamedBy g' π)

include h

theorem stagedLinks_perm :
    (g'.stagedLinks g'.staging.stage).Perm
      ((g.stagedLinks g.staging.stage).map (StagedLink.rename π)) := by
  have hpairs : ∀ g : Graph, g.stagedLinks g.staging.stage =
      (g.links.toList.map Link.pair).map fun p =>
        .make p.1 p.2 (g.staging.stage p.1) (g.staging.stage p.2) := by
    intro g
    rw [List.map_map]
    rfl
  rw [hpairs, hpairs]
  refine (h.pairs_perm.map _).trans (List.Perm.of_eq ?_)
  rw [List.map_map, List.map_map (g := StagedLink.rename π)]
  refine List.map_congr_left fun p _ => ?_
  rw [Function.comp_apply, Function.comp_apply, StagedLink.rename_make, h.stage_eq, h.stage_eq]

/-- Crossings are reduced in both graphs, and come out alike, or in neither. -/
theorem reduction?_cases (hsymm : SymmetricSign α) (s : LayoutSettings α) :
    (g.reduction? s = none ∧ g'.reduction? s = none) ∨
      ∃ o o', g.reduction? s = some o ∧ g'.reduction? s = some o' ∧
        ReductionOutcome.RenamedBy π o o' := by
  have hlinks := h.stagedLinks_perm
  have hlength := hlinks.length_eq
  rw [List.length_map] at hlength
  have hslots : (g'.stagedCanvas s).slots = (g.stagedCanvas s).slots.map (Slot.rename π) := by
    rw [h.stagedCanvas_eq, Canvas.rename]
  unfold reduction?
  rw [hlength]
  split
  · refine Or.inr ⟨_, _, rfl, rfl, ?_⟩
    rw [hslots]
    exact reduceCrossings_renamedBy hsymm hlinks (h.firstHeights s) (size_firstHeights g s)
      ((size_firstHeights g' s).trans h.count_eq) (g.canvas_slots_proper s g.staging.stage)
      s.crossingMaxPasses
  · exact Or.inl ⟨rfl, rfl⟩

theorem finalHeights (hsymm : SymmetricSign α) (s : LayoutSettings α) :
    π.Relabels (g.finalHeights s) (g'.finalHeights s) := by
  unfold Graph.finalHeights
  rcases h.reduction?_cases hsymm s with ⟨hnone, hnone'⟩ | ⟨o, o', hsome, hsome', ho⟩
  · rw [hnone, hnone']
    exact h.firstHeights s
  · rw [hsome, hsome']
    exact ho.heights

theorem positionAt_eq (hsymm : SymmetricSign α) (s : LayoutSettings α) (i : Nat) :
    g'.positionAt s (π i) = g.positionAt s i := by
  have hposition : ∀ (g : Graph) (j : Nat), g.positionAt s j =
      { x := (g.placeAt s j).anonymous.x, y := heightOf (g.finalHeights s) j,
        groupIndex := (g.placeAt s j).anonymous.groupIndex, stageIndex := g.staging.stage j,
        columnIndex := (g.placeAt s j).anonymous.columnIndex } := fun _ _ => rfl
  rw [hposition, hposition, h.placeAt_eq, (h.finalHeights hsymm s).heightOf_eq, h.stage_eq]

theorem metricsOf_eq (hsymm : SymmetricSign α) (s : LayoutSettings α) (mean : α) :
    { g'.metricsOf s with meanEdgeLength := mean } =
      { g.metricsOf s with meanEdgeLength := mean } := by
  have hcycles : g'.staging.cycleEdges = g.staging.cycleEdges := h.staging.cycleEdges_eq
  have hstages : ((List.range g'.staging.count).map fun k =>
        (List.range g'.entityCount).countP (g'.staging.stage · == k)) =
      (List.range g.staging.count).map fun k =>
        (List.range g.entityCount).countP (g.staging.stage · == k) := by
    rw [h.stageCount_eq]
    exact List.map_congr_left fun k _ => h.countP_stage_eq k
  unfold metricsOf bands
  rw [hcycles, hstages, h.stageCount_eq, h.stagedCanvas_eq]
  rcases h.reduction?_cases hsymm s with ⟨hnone, hnone'⟩ | ⟨o, o', hsome, hsome', ho⟩
  · rw [hnone, hnone']
    rfl
  · rw [hsome, hsome']
    simp only [Option.map_some, Option.getD_some, ho.before_eq, ho.after_eq, ho.reversals_eq,
      ho.passes_eq]
    rfl

theorem isEmpty_eq : g'.isEmpty = g.isEmpty := by
  have hsize : g'.entities.size = g.entities.size := h.count_eq
  unfold isEmpty Array.isEmpty
  rw [hsize]

/-- **A graph with its positions renamed has the same layout.** -/
theorem layout (hsymm : SymmetricSign α) (s : LayoutSettings α) :
    (g.layout s).SameDrawing (g'.layout s) := by
  cases hempty : g.isEmpty with
  | true =>
      rw [layout_of_isEmpty hempty, layout_of_isEmpty (h.isEmpty_eq.trans hempty)]
      exact ⟨rfl, rfl, rfl⟩
  | false =>
      rw [layout_of_nonempty hempty, layout_of_nonempty (h.isEmpty_eq.trans hempty)]
      refine ⟨?_, ?_, h.metricsOf_eq hsymm s _⟩
      · dsimp only
        rw [h.sortedById_range, List.map_map]
        refine List.map_congr_left fun i _ => ?_
        rw [Function.comp_apply, h.id_eq, h.positionAt_eq hsymm]
      · dsimp only
        rw [h.stagedCanvas_eq, Canvas.rename]

end RenamedBy

/-- Graphs that link the same pairs of the same entities have the same calls. -/
theorem SameLinks.sameCalls {g g' : Graph} (h : SameLinks g g') : SameCalls g g' where
  labels_iff := by
    rw [h.entities_eq]
    exact fun _ => Iff.rfl
  hasEdge_eq := h.hasEdge_eq

/-- **The layout does not depend on the order of insertion.** Graphs with the same
entities, by id, name and group, and the same edges, by the ids they join, have the
same positions, lanes and metrics, the mean link length aside, whatever order the
entities and the edges were added in and whatever lines the edges have. A graph and
the graph that its snapshot gives are an instance. -/
theorem layout_forgets_order (hsymm : SymmetricSign α) (s : LayoutSettings α) :
    (∀ g g' : Graph, g.WellFormed → g'.WellFormed → SameCalls g g' →
      (g.layout s).SameDrawing (g'.layout s)) ∧
    ∀ g : Graph, g.WellFormed →
      ∃ g', ofSnapshot g.snapshot = .ok g' ∧ (g.layout s).SameDrawing (g'.layout s) := by
  have hsame : ∀ g g' : Graph, g.WellFormed → g'.WellFormed → SameCalls g g' →
      (g.layout s).SameDrawing (g'.layout s) := by
    intro g g' hg hg' h
    obtain ⟨π, hπ⟩ := h.exists_renaming hg hg'
    exact hπ.layout hsymm s
  refine ⟨hsame, ?_⟩
  intro g hg
  obtain ⟨g', hok, hg', _, hlinks⟩ := hg.exists_rebuilt
  exact ⟨g', hok, hsame g g' hg hg' hlinks.sameCalls⟩

/-- The ring, offered and linked from the end, by calls in other lines. -/
def turnedRing : Graph :=
  ofInsertions ring.entities.toList.reverse
    (ring.edgesMade.reverse.map fun e => { e with line := e.line + 7 })

/-- The two rings have no entity at the same position, but one layout. -/
theorem layout_forgets_order_ring :
    SameCalls ring turnedRing ∧ ring.node 0 ≠ turnedRing.node 0 ∧
      (ring.layout (LayoutSettings.standard (α := ℝ))).SameDrawing
        (turnedRing.layout LayoutSettings.standard) := by
  have hg : ring.WellFormed := wellFormed_ofInsertions _ _
  have hg' : turnedRing.WellFormed := wellFormed_ofInsertions _ _
  have hlabels : (turnedRing.entities.toList.map Entity.label).Perm
      (ring.entities.toList.map Entity.label) := by decide +kernel
  have hpairs : (turnedRing.edgesMade.map Edge.pair).Perm (ring.edgesMade.map Edge.pair) := by
    decide +kernel
  have hsame : SameCalls ring turnedRing := by
    refine ⟨fun label => ?_, fun s t => ?_⟩
    · simpa only [List.mem_map, Array.mem_toList_iff] using hlabels.mem_iff (a := label)
    · rw [Bool.eq_iff_iff, hg'.hasEdge_iff_mem, hg.hasEdge_iff_mem, hpairs.mem_iff]
  exact ⟨hsame, by decide +kernel,
    (layout_forgets_order symmetricSign_real .standard).1 ring turnedRing hg hg' hsame⟩

end Graph

end CallAtlas
