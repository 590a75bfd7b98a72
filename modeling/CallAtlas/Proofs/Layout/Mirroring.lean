import Mathlib
import CallAtlas.Proofs.Layout.Canvas

/-!
# Mirroring stays within columns

The crossing reduction changes heights in one way only: it mirrors slots. A mirroring that
it does not keep is undone, so what is left of a whole reduction are the mirrorings that were
kept, one after the other (`exists_kept_reduceCrossings`).

**A mirroring moves nobody out of their column.** Every run of a slot lies in one column
(`exists_column_of_run`), and its entities trade heights among themselves. Trading places is
injective, so no height is given away twice. `Rearranges` says this of any number of
mirrorings, and for a layout it says that after the reduction the entities of a column still
stand in the rows of the column, one in each (`exists_rows`).
-/

namespace CallAtlas

variable {α : Type} [Coordinate α]

/-! ### Trading heights -/

/-- Everyone has the height that someone of the same kind had before, and no two have that of
the same one. -/
def Rearranges {κ : Type} (kind : Nat → κ) (ys zs : Heights α) : Prop :=
  ∃ σ : Nat → Nat, Function.Injective σ ∧ (∀ i, kind (σ i) = kind i) ∧
    ∀ i, heightOf zs i = heightOf ys (σ i)

namespace Rearranges

variable {κ : Type} {kind : Nat → κ} {ys zs ws : Heights α}

theorem refl (kind : Nat → κ) (ys : Heights α) : Rearranges kind ys ys :=
  ⟨id, Function.injective_id, fun _ => rfl, fun _ => rfl⟩

theorem trans (h : Rearranges kind ys zs) (h' : Rearranges kind zs ws) : Rearranges kind ys ws := by
  obtain ⟨σ, hinj, hkind, heights⟩ := h
  obtain ⟨σ', hinj', hkind', heights'⟩ := h'
  refine ⟨σ ∘ σ', hinj.comp hinj', ?_, ?_⟩
  · intro i
    simp [hkind, hkind']
  · intro i
    simp [heights, heights']

end Rearranges

/-- A position trades places with one other at most. -/
theorem Mirrors.unique {n : Nat} {slot : Slot} (hslot : slot.Proper n) {i j j' : Nat}
    (h : Mirrors slot i j) (h' : Mirrors slot i j') : j = j' := by
  obtain ⟨run, hrun, hmem⟩ := h
  obtain ⟨run', hrun', hmem'⟩ := h'
  obtain ⟨hnodup, hdisjoint⟩ := List.nodup_flatten.mp hslot.nodup
  have hi : i ∈ run := (List.of_mem_zip hmem).1
  have hi' : i ∈ run' := (List.of_mem_zip hmem').1
  have hsymm : Std.Symm (List.Disjoint (α := Nat)) := ⟨fun _ _ => List.Disjoint.symm⟩
  obtain rfl : run = run' := by
    by_contra hne
    exact hdisjoint.forall hrun hrun' hne hi hi'
  -- In its run the position comes once, and the partner stands opposite.
  obtain ⟨k, hk⟩ := List.mem_iff_getElem?.mp hmem
  obtain ⟨k', hk'⟩ := List.mem_iff_getElem?.mp hmem'
  obtain ⟨hleft, hright⟩ := List.getElem?_zip_eq_some.mp hk
  obtain ⟨hleft', hright'⟩ := List.getElem?_zip_eq_some.mp hk'
  have hlt := (List.getElem?_eq_some_iff.mp hleft).1
  obtain rfl : k = k' := (List.getElem?_inj hlt (hnodup run hrun)).mp (hleft.trans hleft'.symm)
  exact Option.some.inj (hright.symm.trans hright')

theorem Mirrors.same_kind {κ : Type} {kind : Nat → κ} {slot : Slot}
    (hkind : ∀ run ∈ slot, ∀ i ∈ run, ∀ j ∈ run, kind i = kind j) {i j : Nat}
    (h : Mirrors slot i j) : kind j = kind i := by
  obtain ⟨run, hrun, hmem⟩ := h
  obtain ⟨hi, hj⟩ := List.of_mem_zip hmem
  exact hkind run hrun j (List.mem_reverse.mp hj) i hi

/-- Mirroring a slot whose runs are of one kind each. -/
theorem rearranges_mirrorSlot {κ : Type} {kind : Nat → κ} {ys : Heights α} {slot : Slot}
    (hslot : slot.Proper ys.size) (hkind : ∀ run ∈ slot, ∀ i ∈ run, ∀ j ∈ run, kind i = kind j) :
    Rearranges kind ys (mirrorSlot ys slot) := by
  -- Who is in the slot trades places, and everyone else stays.
  have hpartner : ∀ i, ∃ j, Mirrors slot i j ∨ (i ∉ slot.flatten ∧ j = i) := by
    intro i
    by_cases hi : i ∈ slot.flatten
    · obtain ⟨j, hj⟩ := exists_mirrors hi
      exact ⟨j, Or.inl hj⟩
    · exact ⟨i, Or.inr ⟨hi, rfl⟩⟩
  choose σ hσ using hpartner
  refine ⟨σ, ?_, ?_, ?_⟩
  · intro i j hij
    rcases hσ i with hi | ⟨hi, hself⟩
    · rcases hσ j with hj | ⟨hj, hself⟩
      · rw [← hij] at hj
        exact hi.symm.unique hslot hj.symm
      · -- The partner of `i` is in the slot, and `j` is not.
        rw [hij, hself] at hi
        exact absurd hi.symm.mem_flatten hj
    · rcases hσ j with hj | ⟨hj, hself'⟩
      · rw [← hij, hself] at hj
        exact absurd hj.symm.mem_flatten hi
      · rw [← hself, ← hself', hij]
  · intro i
    rcases hσ i with hi | ⟨_, hself⟩
    · exact hi.same_kind hkind
    · rw [hself]
  · intro i
    rcases hσ i with hi | ⟨hi, hself⟩
    · exact heightOf_mirrorSlot_of_mirrors hslot hi
    · rw [hself, heightOf_mirrorSlot_of_not_mem hi]

theorem rearranges_foldl_mirrorSlot {κ : Type} {kind : Nat → κ} {ys : Heights α}
    {slots : List Slot} (hslots : ∀ slot ∈ slots, slot.Proper ys.size)
    (hkind : ∀ slot ∈ slots, ∀ run ∈ slot, ∀ i ∈ run, ∀ j ∈ run, kind i = kind j) :
    Rearranges kind ys (slots.foldl mirrorSlot ys) := by
  induction slots generalizing ys with
  | nil => exact .refl kind ys
  | cons slot slots ih =>
      obtain ⟨hslot, hslots⟩ := List.forall_mem_cons.mp hslots
      obtain ⟨hrun, hruns⟩ := List.forall_mem_cons.mp hkind
      refine (rearranges_mirrorSlot hslot hrun).trans (ih ?_ hruns)
      simpa using hslots

/-! ### What a reduction leaves behind -/

namespace Reduction

/-- Trying a slot leaves it mirrored or as it was. -/
theorem heights_trySlot (links : List StagedLink) (r : Reduction α) {slot : Slot}
    (hslot : slot.Proper r.heights.size) :
    (r.trySlot links slot).heights = r.heights ∨
      (r.trySlot links slot).heights = mirrorSlot r.heights slot := by
  unfold trySlot
  dsimp only
  split
  · exact Or.inl rfl
  split
  · exact Or.inl rfl
  split
  · exact Or.inr rfl
  · exact Or.inl (mirrorSlot_mirrorSlot hslot)

/-- Trying slots leaves those mirrored that were kept. -/
theorem exists_kept_foldl_trySlot (links : List StagedLink) {slots : List Slot} {r : Reduction α}
    (hslots : ∀ slot ∈ slots, slot.Proper r.heights.size) :
    ∃ kept : List Slot, kept.Sublist slots ∧
      (slots.foldl (Reduction.trySlot links) r).heights = kept.foldl mirrorSlot r.heights := by
  induction slots generalizing r with
  | nil => exact ⟨[], List.Sublist.refl [], rfl⟩
  | cons slot slots ih =>
      obtain ⟨hslot, hslots⟩ := List.forall_mem_cons.mp hslots
      rcases heights_trySlot links r hslot with hheights | hheights
      · obtain ⟨kept, hsub, heq⟩ := ih (r := r.trySlot links slot) (by rwa [hheights])
        exact ⟨kept, hsub.cons slot, by rw [List.foldl_cons, heq, hheights]⟩
      · obtain ⟨kept, hsub, heq⟩ := ih (r := r.trySlot links slot) (by
          rwa [hheights, size_mirrorSlot])
        exact ⟨slot :: kept, hsub.cons_cons slot, by
          rw [List.foldl_cons, heq, hheights, List.foldl_cons]⟩

end Reduction

/-- **A whole reduction mirrors slots, and does nothing else.** -/
theorem exists_kept_reduceCrossings (links : List StagedLink) {ys : Heights α} {slots : List Slot}
    (hslots : ∀ slot ∈ slots, slot.Proper ys.size) (maxPasses : Nat) :
    ∃ kept : List Slot, (∀ slot ∈ kept, slot ∈ slots) ∧
      (reduceCrossings links ys slots maxPasses).heights = kept.foldl mirrorSlot ys := by
  obtain ⟨tried, htried, heq⟩ := Reduction.exists_tried_passes links slots
    (min maxPasses (countCrossings ys links + 1)) 0 (.start links ys)
  have hproper : ∀ slot ∈ tried, slot.Proper (Reduction.start links ys).heights.size :=
    fun slot h => hslots slot (htried slot h)
  obtain ⟨kept, hsub, hkept⟩ := Reduction.exists_kept_foldl_trySlot links hproper
  refine ⟨kept, fun slot h => htried slot (hsub.subset h), ?_⟩
  unfold reduceCrossings
  dsimp only
  rw [Reduction.current_start, heq, hkept]
  rfl

/-! ### Columns -/

namespace Graph

/-- The lane and the column of an entity of the graph. -/
def columnAt? (g : Graph) (s : LayoutSettings α) (i : Nat) : Option (Nat × Nat) :=
  if i < g.entityCount then some ((g.placeAt s i).groupIndex, (g.placeAt s i).columnIndex)
  else none

theorem columnAt?_of_lt {g : Graph} {s : LayoutSettings α} {i : Nat} (hi : i < g.entityCount) :
    g.columnAt? s i = some ((g.placeAt s i).groupIndex, (g.placeAt s i).columnIndex) :=
  if_pos hi

theorem columnAt?_eq_some {g : Graph} {s : LayoutSettings α} {i k c : Nat}
    (h : g.columnAt? s i = some (k, c)) :
    i < g.entityCount ∧ (g.placeAt s i).groupIndex = k ∧ (g.placeAt s i).columnIndex = c := by
  unfold columnAt? at h
  split at h
  · rename_i hi
    cases h
    exact ⟨hi, rfl, rfl⟩
  · cases h

/-- What is placed is an entity of the graph. -/
theorem node_lt_of_mem_placed {g : Graph} {s : LayoutSettings α} {p : Placed α}
    (hp : p ∈ (g.stagedCanvas s).placed) : p.node < g.entityCount := by
  have hspot : p.spot ∈ g.spots s := by
    rw [← map_spot_placed]
    exact List.mem_map_of_mem hp
  obtain ⟨lane, hlane, r, hr, _⟩ := mem_spots.mp hspot
  have hmem := (g.ranked_perm _).mem_iff.mp (List.mem_of_getElem? hr)
  exact ((mem_members (List.mem_of_getElem? hlane)).mp hmem).1

/-- Every run of a slot lies in one column. -/
theorem exists_column_of_run {g : Graph} {s : LayoutSettings α} {slot : Slot}
    (hslot : slot ∈ (g.stagedCanvas s).slots) {run : List Nat} (hrun : run ∈ slot) :
    ∃ column : Nat × Nat, ∀ i ∈ run, g.columnAt? s i = some column := by
  have hdrawn := g.drawn_stagedCanvas s
  rw [hdrawn.slots_eq, List.mem_flatMap] at hslot
  obtain ⟨⟨lane, geometry⟩, hzip, hslot⟩ := hslot
  obtain ⟨stage, hruns⟩ := exists_stage_of_mem_slotsOf (sorted_laneColumns g s _ _ _ lane) hslot
  obtain ⟨_, placed, hplaced, rfl⟩ := (hruns run).mp hrun
  obtain ⟨c, _, _, hall⟩ := mem_laneColumns hplaced
  refine ⟨(geometry.index, c), ?_⟩
  intro i hi
  obtain ⟨p, hp, rfl⟩ := List.mem_map.mp hi
  have hp := List.mem_of_mem_filter hp
  have hmem : p ∈ (g.stagedCanvas s).placed := by
    rw [hdrawn.placed_eq]
    exact List.mem_flatMap.mpr ⟨_, hzip, List.mem_flatten.mpr ⟨placed, hplaced, hp⟩⟩
  have hlt := node_lt_of_mem_placed hmem
  obtain ⟨hgroup, hcolumn, _⟩ := hall p hp
  rw [columnAt?_of_lt hlt, placeAt_of_mem hmem hlt, hgroup, hcolumn]

theorem heightOf_firstHeights (g : Graph) (s : LayoutSettings α) (i : Nat) :
    heightOf (g.firstHeights s) i = (g.placeAt s i).y := by
  unfold heightOf firstHeights placeAt
  rw [Array.getElem?_map]
  cases (g.places s)[i]? <;> rfl

/-- What the reduction leaves behind are the first heights with slots of the canvas mirrored. -/
theorem exists_kept_finalHeights (g : Graph) (s : LayoutSettings α) :
    ∃ kept : List Slot, (∀ slot ∈ kept, slot ∈ (g.stagedCanvas s).slots) ∧
      g.finalHeights s = kept.foldl mirrorSlot (g.firstHeights s) := by
  unfold finalHeights reduction?
  split
  · exact exists_kept_reduceCrossings _ (g.stagedCanvas_slots_proper s) s.crossingMaxPasses
  · exact ⟨[], by simp, rfl⟩

/-- The reduction rearranges heights within columns. -/
theorem rearranges_finalHeights (g : Graph) (s : LayoutSettings α) :
    Rearranges (g.columnAt? s) (g.firstHeights s) (g.finalHeights s) := by
  obtain ⟨kept, hkept, heq⟩ := g.exists_kept_finalHeights s
  rw [heq]
  refine rearranges_foldl_mirrorSlot
    (fun slot h => g.stagedCanvas_slots_proper s slot (hkept slot h)) ?_
  intro slot hslot run hrun i hi j hj
  obtain ⟨column, hcolumn⟩ := exists_column_of_run (hkept slot hslot) hrun
  rw [hcolumn i hi, hcolumn j hj]

/-- Who stands in the column of an entity, itself included, from top to bottom before
crossings are reduced. -/
def columnmates (g : Graph) (s : LayoutSettings α) (i : Nat) : List Nat :=
  g.rowsAt s (g.placeAt s i).groupIndex (g.placeAt s i).columnIndex

/-- **After the reduction the entities of a column stand in its rows**, one in each. -/
theorem exists_rows (g : Graph) (s : LayoutSettings α) :
    ∃ row : Nat → Nat,
      (∀ i < g.entityCount, row i < (g.columnmates s i).length ∧
        (g.positionAt s i).y = s.rowHeight (g.positionAt s i).columnIndex
          (g.columnmates s i).length (row i)) ∧
      ∀ i < g.entityCount, ∀ j < g.entityCount, i ≠ j → g.columnAt? s i = g.columnAt? s j →
        row i ≠ row j := by
  obtain ⟨σ, hinj, hkind, hheights⟩ := g.rearranges_finalHeights s
  -- Everyone stands where someone of the column stood before, in the row of that one.
  have hrow : ∀ i, ∃ row, i < g.entityCount → (g.columnmates s i)[row]? = some (σ i) ∧
      (g.positionAt s i).y = s.rowHeight (g.positionAt s i).columnIndex
        (g.columnmates s i).length row := by
    intro i
    by_cases hi : i < g.entityCount
    · have hcolumn := hkind i
      rw [columnAt?_of_lt hi] at hcolumn
      obtain ⟨hlt, hgroup, hcolumn⟩ := columnAt?_eq_some hcolumn
      obtain ⟨_, row, hwithin⟩ := g.withinColumn_placeAt s hlt
      have hat := hwithin.row_eq
      have hy := hwithin.y_eq
      rw [node_placeAt hlt, hgroup, hcolumn] at hat
      rw [hgroup, hcolumn, ← heightOf_firstHeights, ← hheights] at hy
      exact ⟨row, fun _ => ⟨hat, hy⟩⟩
    · exact ⟨0, fun h => absurd h hi⟩
  choose row hrow using hrow
  refine ⟨row, ?_, ?_⟩
  · intro i hi
    exact ⟨(List.getElem?_eq_some_iff.mp (hrow i hi).1).1, (hrow i hi).2⟩
  · intro i hi j hj hne hcolumn heq
    have hat := (hrow i hi).1
    have hmates : g.columnmates s i = g.columnmates s j := by
      rw [columnAt?_of_lt hi, columnAt?_of_lt hj, Option.some_inj, Prod.mk.injEq] at hcolumn
      rw [columnmates, columnmates, hcolumn.1, hcolumn.2]
    rw [heq, hmates, (hrow j hj).1] at hat
    exact hne (hinj (Option.some.inj hat).symm)

end Graph

end CallAtlas
