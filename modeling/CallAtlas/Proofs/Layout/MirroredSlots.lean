import Mathlib
import CallAtlas.Proofs.Graph.Insertion
import CallAtlas.Proofs.Layout.Partition
import CallAtlas.Proofs.Layout.Runs

/-!
# What a reduction of crossings changes in a drawing

A drawing is compared here with the one that the same settings give without a reduction. Both
have the same slots, and the reduction mirrors some of them, some of them often. **Mirroring
twice changes nothing**, and slots have no entity in common, so all that counts for a run is
whether its slot has been mirrored an odd number of times (`map_heightOf_foldl_mirrorSlot`):
then the run is reversed, and otherwise it stands as it stood.

Nothing else about a position is looked at again after an entity has been placed, and a column
has the heights it had, in another order.
-/

namespace CallAtlas

variable {α : Type} [Coordinate α]

/-! ### Slots mirrored again and again -/

/-- Mirroring a slot reverses the heights of each of its runs. -/
theorem map_heightOf_mirrorSlot {ys : Heights α} {slot : Slot} (hslot : slot.Proper ys.size)
    {run : List Nat} (hrun : run ∈ slot) :
    run.map (heightOf (mirrorSlot ys slot)) = (run.map (heightOf ys)).reverse := by
  rw [← List.map_reverse]
  refine List.ext_getElem (by simp) fun j hj hj' => ?_
  rw [List.length_map] at hj hj'
  rw [List.getElem_map, List.getElem_map]
  have hzip : (run[j], run.reverse[j]) ∈ run.zip run.reverse := by
    refine List.mem_iff_getElem.mpr ⟨j, ?_, List.getElem_zip⟩
    rw [List.length_zip]
    exact Nat.lt_min.mpr ⟨hj, hj'⟩
  exact heightOf_mirrorSlot_of_mirrors hslot ⟨run, hrun, hzip⟩

/-- Slots that name no entity twice between them are told apart by any of their entities. -/
theorem eq_of_mem_flatten {slots : List Slot} (hnodup : slots.flatten.flatten.Nodup)
    {slot slot' : Slot} (h : slot ∈ slots) (h' : slot' ∈ slots) {i : Nat}
    (hi : i ∈ slot.flatten) (hi' : i ∈ slot'.flatten) : slot = slot' := by
  rw [List.flatten_flatten, List.nodup_flatten, List.pairwise_map] at hnodup
  have hsymm : Std.Symm fun a b : Slot => List.Disjoint a.flatten b.flatten :=
    ⟨fun _ _ => List.Disjoint.symm⟩
  by_contra hne
  exact hnodup.2.forall h h' hne hi hi'

/-- **After many mirrorings a run is reversed or as it was**, as its slot has been mirrored an
odd number of times or an even one. -/
theorem map_heightOf_foldl_mirrorSlot {slots kept : List Slot} {ys : Heights α}
    (hproper : ∀ slot ∈ slots, slot.Proper ys.size) (hnodup : slots.flatten.flatten.Nodup)
    (hkept : ∀ slot ∈ kept, slot ∈ slots) {slot : Slot} (hslot : slot ∈ slots) {run : List Nat}
    (hrun : run ∈ slot) :
    run.map (heightOf (kept.foldl mirrorSlot ys)) =
      if Odd (kept.count slot) then (run.map (heightOf ys)).reverse
      else run.map (heightOf ys) := by
  induction kept generalizing ys with
  | nil => simp
  | cons first kept ih =>
      obtain ⟨hfirst, hkept⟩ := List.forall_mem_cons.mp hkept
      have hproper' : ∀ slot ∈ slots, slot.Proper (mirrorSlot ys first).size := by
        simpa using hproper
      rw [List.foldl_cons, ih hproper' hkept]
      by_cases heq : first = slot
      · rw [heq, map_heightOf_mirrorSlot (hproper slot hslot) hrun, List.count_cons_self]
        simp only [Nat.odd_add_one, List.reverse_reverse, ite_not]
      · have hstays : run.map (heightOf (mirrorSlot ys first)) = run.map (heightOf ys) := by
          refine List.map_congr_left fun i hi => heightOf_mirrorSlot_of_not_mem fun hi' => ?_
          exact heq (eq_of_mem_flatten hnodup hfirst hslot hi' (List.mem_flatten_of_mem hrun hi))
        rw [hstays, List.count_cons_of_ne heq]

/-- Who trades places within a list leaves its items the same, in another order. -/
theorem map_perm_of_injective {β : Type} {xs : List β} (hnodup : xs.Nodup) {σ : β → β}
    (hinj : Function.Injective σ) (hσ : ∀ x ∈ xs, σ x ∈ xs) : (xs.map σ).Perm xs := by
  have hsub : xs.map σ ⊆ xs := by
    intro x hx
    obtain ⟨y, hy, rfl⟩ := List.mem_map.mp hx
    exact hσ y hy
  refine (List.subperm_of_subset (hnodup.map hinj) hsub).perm_of_length_le ?_
  rw [List.length_map]

/-! ### Slots of a drawing -/

/-- The same settings, without a reduction of crossings. -/
def LayoutSettings.unreduced (s : LayoutSettings α) : LayoutSettings α :=
  { s with crossingMaxPasses := 0 }

/-- All of a position but its height. -/
def Position.aside (p : Position α) : α × Nat × Nat × Nat :=
  (p.x, p.groupIndex, p.stageIndex, p.columnIndex)

namespace Layout

/-- The heights in a column of a group, by entity id. -/
def columnHeights (l : Layout α) (k c : Nat) : List α :=
  (l.positions.filter fun p => p.2.groupIndex == k && p.2.columnIndex == c).map (·.2.y)

/-- The heights of entities of a graph, one by one. -/
def heightsAt (l : Layout α) (g : Graph) (run : List Nat) : List (Option α) :=
  run.map fun i => (l.position? (g.node i).id).map (·.y)

/-- The entity at an index of a graph has a position. -/
def PutsAt (l : Layout α) (g : Graph) (i : Nat) (p : Position α) : Prop :=
  i < g.entityCount ∧ l.position? (g.node i).id = some p

/-- A run of a drawing: the entities of one group, column and stage, in consecutive rows of
their column. -/
structure IsRun (g : Graph) (s : LayoutSettings α) (l : Layout α) (k c m : Nat)
    (run : List Nat) : Prop where
  ne_nil : run ≠ []
  mem_iff : ∀ i, i ∈ run ↔
    ∃ p, l.PutsAt g i p ∧ p.groupIndex = k ∧ p.columnIndex = c ∧ p.stageIndex = m
  consecutive : ∃ first, ∀ j i, run[j]? = some i →
    ∃ p, l.PutsAt g i p ∧ p.y = s.rowHeight c (l.column k c).length (first + j)

/-- A slot of a drawing: the entities of one group and stage, in one run for each column. -/
structure IsSlot (g : Graph) (s : LayoutSettings α) (l : Layout α) (k m : Nat) (slot : Slot) :
    Prop where
  mem_iff : ∀ i, i ∈ slot.flatten ↔ ∃ p, l.PutsAt g i p ∧ p.groupIndex = k ∧ p.stageIndex = m
  exists_column : ∀ run ∈ slot, ∃ c, l.IsRun g s k c m run

/-- A drawing is another one with some of its slots mirrored. -/
structure MirroredFrom (g : Graph) (slots mirrored : List Slot) (l l' : Layout α) : Prop where
  subset : mirrored ⊆ slots
  reversed : ∀ slot ∈ mirrored, ∀ run ∈ slot, l'.heightsAt g run = (l.heightsAt g run).reverse
  untouched : ∀ slot ∈ slots, slot ∉ mirrored → ∀ run ∈ slot,
    l'.heightsAt g run = l.heightsAt g run
  columnHeights_perm : ∀ k c, (l'.columnHeights k c).Perm (l.columnHeights k c)
  /-- Ids, horizontal positions, groups, stages and columns are the same. -/
  aside_eq : l'.positions.map (fun p => (p.1, p.2.aside)) =
    l.positions.map fun p => (p.1, p.2.aside)
  groups_eq : l'.groups = l.groups

end Layout

namespace Graph

variable {g : Graph} {s : LayoutSettings α}

/-! ### Without a reduction -/

theorem stagedCanvas_unreduced (g : Graph) (s : LayoutSettings α) :
    g.stagedCanvas s.unreduced = g.stagedCanvas s := rfl

theorem finalHeights_unreduced (g : Graph) (s : LayoutSettings α) :
    g.finalHeights s.unreduced = g.firstHeights s := by
  have hfirst : g.firstHeights s.unreduced = g.firstHeights s := rfl
  unfold finalHeights reduction?
  split
  · have hpasses : s.unreduced.crossingMaxPasses = 0 := rfl
    rw [hpasses, hfirst, Option.map_some, Option.getD_some, reduceCrossings, Nat.zero_min]
    rfl
  · exact hfirst

theorem positionAt_unreduced (g : Graph) (s : LayoutSettings α) (i : Nat) :
    g.positionAt s.unreduced i =
      { g.positionAt s i with y := heightOf (g.firstHeights s) i } := by
  rw [positionAt, finalHeights_unreduced]
  rfl

theorem WellFormed.putsAt_layout (hg : g.WellFormed) (s : LayoutSettings α) {i : Nat}
    {p : Position α} :
    (g.layout s).PutsAt g i p ↔ i < g.entityCount ∧ g.positionAt s i = p := by
  refine and_congr_right fun hi => ?_
  rw [hg.position?_layout s hi, Option.some_inj]

theorem length_column_eq (g : Graph) (s : LayoutSettings α) (k c : Nat) :
    ((g.layout s).column k c).length = (g.rowsAt s k c).length := by
  rw [(g.column_layout_perm s k c).length_eq, List.length_map, (g.rowsAt_perm s k c).length_eq]

theorem WellFormed.isRun_runAt (hg : g.WellFormed) {k c m : Nat} (hne : g.runAt s k c m ≠ []) :
    (g.layout s.unreduced).IsRun g s k c m (g.runAt s k c m) := by
  refine ⟨hne, fun i => ?_, ?_⟩
  · rw [mem_runAt]
    constructor
    · rintro ⟨hcolumn, hstage⟩
      obtain ⟨hi, hgroup, hcolumn⟩ := columnAt?_eq_some hcolumn
      exact ⟨_, (hg.putsAt_layout _).mpr ⟨hi, rfl⟩, hgroup, hcolumn, hstage⟩
    · rintro ⟨p, hp, hgroup, hcolumn, hstage⟩
      obtain ⟨hi, rfl⟩ := (hg.putsAt_layout _).mp hp
      refine ⟨?_, hstage⟩
      rw [columnAt?_of_lt hi]
      exact congrArg some (Prod.ext hgroup hcolumn)
  · -- The run starts where the rows of lower stages end.
    obtain ⟨above, below, hrows⟩ := g.isInfix_runAt s k c m
    refine ⟨above.length, fun j i hj => ?_⟩
    have hlt := (List.getElem?_eq_some_iff.mp hj).1
    have hrow : (g.rowsAt s k c)[above.length + j]? = some i := by
      rw [← hrows, List.append_assoc, List.getElem?_append_right (Nat.le_add_right _ _),
        Nat.add_sub_cancel_left, List.getElem?_append_left hlt, hj]
    obtain ⟨hi, _⟩ := columnAt?_eq_some (mem_rowsAt.mp (List.mem_of_getElem? hrow))
    refine ⟨_, (hg.putsAt_layout _).mpr ⟨hi, rfl⟩, ?_⟩
    rw [positionAt_unreduced, length_column_eq]
    exact firstHeights_of_rowsAt hrow

/-- The slots of a canvas are those of the drawing before the reduction. -/
theorem WellFormed.isSlot_of_mem_slots (hg : g.WellFormed) {slot : Slot}
    (h : slot ∈ (g.stagedCanvas s).slots) :
    ∃ k m, (g.layout s.unreduced).IsSlot g s k m slot := by
  obtain ⟨k, m, hruns⟩ := exists_runAt_of_mem_slots h
  refine ⟨k, m, fun i => ?_, fun run hrun => ?_⟩
  · rw [mem_flatten_slot_iff hruns]
    constructor
    · rintro ⟨⟨c, hcolumn⟩, hstage⟩
      obtain ⟨hi, hgroup, _⟩ := columnAt?_eq_some hcolumn
      exact ⟨_, (hg.putsAt_layout _).mpr ⟨hi, rfl⟩, hgroup, hstage⟩
    · rintro ⟨p, hp, rfl, hstage⟩
      obtain ⟨hi, rfl⟩ := (hg.putsAt_layout _).mp hp
      exact ⟨⟨_, columnAt?_of_lt hi⟩, hstage⟩
  · obtain ⟨hne, c, rfl⟩ := (hruns run).mp hrun
    exact ⟨c, hg.isRun_runAt hne⟩

/-! ### With a reduction -/

theorem WellFormed.heightsAt_layout (hg : g.WellFormed) (s : LayoutSettings α) {run : List Nat}
    (hrun : ∀ i ∈ run, i < g.entityCount) :
    (g.layout s).heightsAt g run = (run.map (heightOf (g.finalHeights s))).map some := by
  rw [List.map_map]
  refine List.map_congr_left fun i hi => ?_
  rw [hg.position?_layout s (hrun i hi)]
  rfl

theorem columnHeights_layout_perm (g : Graph) (s : LayoutSettings α) (k c : Nat) :
    ((g.layout s).columnHeights k c).Perm
      ((g.rowsAt s k c).map (heightOf (g.finalHeights s))) := by
  unfold Layout.columnHeights
  rw [positions_layout, List.filter_map, List.map_map]
  exact (((g.sortedById_perm _).filter _).map _).trans ((g.rowsAt_perm s k c).symm.map _)

/-- A column has the heights that it had without a reduction. -/
theorem columnHeights_perm_unreduced (g : Graph) (s : LayoutSettings α) (k c : Nat) :
    ((g.layout s).columnHeights k c).Perm ((g.layout s.unreduced).columnHeights k c) := by
  obtain ⟨σ, hinj, hcolumn, hheights⟩ := g.rearranges_finalHeights s
  have hrows : ((g.rowsAt s k c).map σ).Perm (g.rowsAt s k c) := by
    refine map_perm_of_injective (g.nodup_rowsAt s k c) hinj fun i hi => ?_
    rw [mem_rowsAt] at hi ⊢
    exact (hcolumn i).trans hi
  have hfinal : (g.rowsAt s k c).map (heightOf (g.finalHeights s)) =
      ((g.rowsAt s k c).map σ).map (heightOf (g.firstHeights s)) := by
    rw [List.map_map]
    exact List.map_congr_left fun i _ => hheights i
  refine (g.columnHeights_layout_perm s k c).trans (.trans ?_
    (g.columnHeights_layout_perm s.unreduced k c).symm)
  rw [hfinal, finalHeights_unreduced]
  exact hrows.map _

/-- **Crossing reduction only mirrors whole slots.** For every graph and all settings, the
slots list every entity once, each slot holding all entities of one group and stage, and each
of its runs those of one column, in consecutive rows. And the drawing is the one that the same
settings give without a reduction, with some of its slots mirrored: the heights of their runs
are reversed and those of all other runs as they were, so that a column keeps its heights; and
nothing else about a position or a lane has changed. -/
theorem layout_mirroredFrom {g : Graph} (hg : g.WellFormed) (s : LayoutSettings α) :
    let slots := (g.stagedCanvas s).slots
    slots.flatten.flatten.Perm (List.range g.entityCount) ∧
      (∀ slot ∈ slots, ∃ k m, (g.layout s.unreduced).IsSlot g s k m slot) ∧
      ∃ mirrored, Layout.MirroredFrom g slots mirrored (g.layout s.unreduced) (g.layout s) := by
  intro slots
  have hperm := g.flatten_slots_perm s
  refine ⟨hperm, fun slot h => hg.isSlot_of_mem_slots h, ?_⟩
  obtain ⟨kept, hkept, hfinal⟩ := g.exists_kept_finalHeights s
  -- A run stands as its slot has been mirrored an odd number of times or an even one.
  have hruns : ∀ slot ∈ slots, ∀ run ∈ slot, (g.layout s).heightsAt g run =
      if Odd (kept.count slot) then ((g.layout s.unreduced).heightsAt g run).reverse
      else (g.layout s.unreduced).heightsAt g run := by
    intro slot hslot run hrun
    have hlt : ∀ i ∈ run, i < g.entityCount := fun i hi =>
      (g.canvas_slots_proper s g.staging.stage slot hslot).lt i
        (List.mem_flatten_of_mem hrun hi)
    rw [hg.heightsAt_layout s hlt, hg.heightsAt_layout s.unreduced hlt, finalHeights_unreduced,
      hfinal, map_heightOf_foldl_mirrorSlot (g.stagedCanvas_slots_proper s)
        (hperm.nodup_iff.mpr List.nodup_range) hkept hslot hrun]
    split
    · rw [List.map_reverse]
    · rfl
  refine ⟨slots.filter fun slot => Odd (kept.count slot), ?_, ?_, ?_, ?_, ?_, ?_⟩
  · exact List.filter_subset_self _
  · intro slot h run hrun
    obtain ⟨hslot, hodd⟩ := List.mem_filter.mp h
    rw [hruns slot hslot run hrun, if_pos (of_decide_eq_true hodd)]
  · intro slot hslot h run hrun
    rw [hruns slot hslot run hrun, if_neg fun hodd =>
      h (List.mem_filter.mpr ⟨hslot, decide_eq_true hodd⟩)]
  · exact g.columnHeights_perm_unreduced s
  · rw [positions_layout, positions_layout, List.map_map, List.map_map]
    rfl
  · rw [groups_layout, groups_layout, stagedCanvas_unreduced]

/-- Two functions that call one another's opposite: the upper one of the callers calls the
lower one of the callees. -/
def twisted : Graph :=
  let entity (name : String) : Entity := .make name "m.js" "." .declaration 1 1 []
  ofInsertions (["a", "b", "c", "d"].map entity)
    [⟨"m.js:a:1", "m.js:d:1", 1⟩, ⟨"m.js:b:1", "m.js:c:1", 2⟩]

/-- The callees stand in one run, and so do the callers. -/
theorem slots_twisted :
    (twisted.stagedCanvas (.standard : LayoutSettings α)).slots = [[[2, 3]], [[0, 1]]] := by
  cbv

/-- Fractions as coordinates, with which a small drawing can be worked out. Lengths are
measured along the axes. -/
instance : Coordinate ℚ where
  ofNat n := n
  less x y := decide (x < y)
  order x y := compare x y
  larger := max
  smaller := min
  length x y := |x| + |y|

/-- The run of the callees is mirrored. -/
theorem layout_mirroredFrom_twisted :
    let s : LayoutSettings ℚ := .standard
    let slots := (twisted.stagedCanvas s).slots
    twisted.WellFormed ∧ slots = [[[2, 3]], [[0, 1]]] ∧
      ∃ mirrored, [[2, 3]] ∈ mirrored ∧
        Layout.MirroredFrom twisted slots mirrored (twisted.layout s.unreduced)
          (twisted.layout s) := by
  intro s slots
  have hg : twisted.WellFormed := wellFormed_ofInsertions _ _
  have hslots : slots = [[[2, 3]], [[0, 1]]] := slots_twisted
  have hslot : [[2, 3]] ∈ slots := by
    rw [hslots]
    exact List.mem_cons_self
  obtain ⟨_, _, mirrored, hmirrored⟩ := layout_mirroredFrom hg s
  refine ⟨hg, hslots, mirrored, ?_, hmirrored⟩
  by_contra hstays
  have hsame := hmirrored.untouched _ hslot hstays _ (List.mem_singleton_self [2, 3])
  have hbefore : (twisted.layout s.unreduced).heightsAt twisted [2, 3] = [some 240, some 420] := by
    cbv
  have hafter : (twisted.layout s).heightsAt twisted [2, 3] = [some 420, some 240] := by
    cbv
  rw [hbefore, hafter] at hsame
  norm_num at hsame

end Graph

end CallAtlas
