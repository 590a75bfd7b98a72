import Mathlib
import CallAtlas.Proofs.Layout.Heights
import CallAtlas.Proofs.Layout.MirroredSlots

/-!
# Columns stay in the order of their stages

A column is shown by sorting its entities by height, so what it shows is read off heights that
a search has rewritten since the rows were given out. It still shows the stages in order.

**What is kept is a relation between heights and stages**: no two entities of a column have one
height, and the one with the smaller height is of no higher stage (`Graph.HeightsByStage`). The
rows are given out so, provided that rows are apart at all. And mirroring a slot lets entities
trade heights with others of the same column and the same stage only, which the relation does
not notice (`Graph.HeightsByStage.rearranges`). So after any number of mirrorings a column
shows one stage after the other, and the part of a slot that is in it in one piece: its run, as
it was or upside down.
-/

namespace CallAtlas

/-- Of two items of a list, one comes before the other. -/
theorem rel_or_rel_of_pairwise {β : Type} {R : β → β → Prop} {xs : List β} (h : xs.Pairwise R)
    {x y : β} (hx : x ∈ xs) (hy : y ∈ xs) (hne : x ≠ y) : R x y ∨ R y x := by
  have hsymm : Std.Symm fun x y => R x y ∨ R y x := ⟨fun _ _ => Or.symm⟩
  have hor : xs.Pairwise fun x y => R x y ∨ R y x := h.imp Or.inl
  exact hor.forall hx hy hne

/-! ### Rows are apart -/

namespace LayoutSettings

theorem spacing_pos {s : LayoutSettings ℝ} (hs : 0 < s.bandHeight ∨ 0 < s.minNodeSpacing)
    (count : Nat) : 0 < s.spacing count := by
  rw [spacing_eq, lt_max_iff]
  exact hs.imp_left fun h => div_pos h (by positivity)

theorem rowHeight_lt_rowHeight {s : LayoutSettings ℝ}
    (hs : 0 < s.bandHeight ∨ 0 < s.minNodeSpacing) (column count : Nat) {row row' : Nat}
    (h : row < row') : s.rowHeight column count row < s.rowHeight column count row' := by
  have hrow : ((row + 1 : ℕ) : ℝ) < ((row' + 1 : ℕ) : ℝ) := by exact_mod_cast Nat.succ_lt_succ h
  exact add_lt_add_right (mul_lt_mul_of_pos_left hrow (spacing_pos hs count)) _

end LayoutSettings

namespace Graph

variable {g : Graph} {s : LayoutSettings ℝ}

theorem pairwise_firstHeights (hs : 0 < s.bandHeight ∨ 0 < s.minNodeSpacing) (g : Graph)
    (k c : Nat) :
    (g.rowsAt s k c).Pairwise fun i j =>
      heightOf (g.firstHeights s) i < heightOf (g.firstHeights s) j := by
  rw [List.pairwise_iff_getElem]
  intro row row' hrow hrow' hlt
  rw [firstHeights_of_rowsAt (List.getElem?_eq_getElem hrow),
    firstHeights_of_rowsAt (List.getElem?_eq_getElem hrow')]
  exact LayoutSettings.rowHeight_lt_rowHeight hs c _ hlt

/-! ### Heights and stages -/

/-- No two entities of a column have one height, and the one with the smaller height is of no
higher stage. -/
def HeightsByStage (g : Graph) (s : LayoutSettings ℝ) (ys : Heights ℝ) : Prop :=
  ∀ i j, i < g.entityCount → i ≠ j → g.columnAt? s i = g.columnAt? s j →
    heightOf ys i ≠ heightOf ys j ∧
      (heightOf ys i < heightOf ys j → g.staging.stage i ≤ g.staging.stage j)

theorem heightsByStage_firstHeights (hs : 0 < s.bandHeight ∨ 0 < s.minNodeSpacing) (g : Graph) :
    g.HeightsByStage s (g.firstHeights s) := by
  intro i j hi hne hcolumn
  rw [columnAt?_of_lt hi] at hcolumn
  have hi := mem_rowsAt.mpr (columnAt?_of_lt (s := s) hi)
  have hj := mem_rowsAt.mpr hcolumn.symm
  -- From row to row, heights and stages grow together, and either entity may come first.
  have hrows := (g.pairwise_firstHeights hs (g.placeAt s i).groupIndex
    (g.placeAt s i).columnIndex).and (g.pairwise_rowsAt s _ _)
  rcases rel_or_rel_of_pairwise hrows hi hj hne with ⟨hlt, hle⟩ | ⟨hlt, _⟩
  · exact ⟨hlt.ne, fun _ => hle⟩
  · exact ⟨hlt.ne', fun hlt' => absurd hlt' hlt.asymm⟩

/-- Entities that trade heights with others of their column and their stage stay in order. -/
theorem HeightsByStage.rearranges {ys zs : Heights ℝ} (h : g.HeightsByStage s ys)
    (hrearranges : Rearranges (fun i => (g.columnAt? s i, g.staging.stage i)) ys zs) :
    g.HeightsByStage s zs := by
  obtain ⟨σ, hinj, hkind, hheights⟩ := hrearranges
  intro i j hi hne hcolumn
  obtain ⟨hcolumn_i, hstage_i⟩ := Prod.mk.inj (hkind i)
  obtain ⟨hcolumn_j, hstage_j⟩ := Prod.mk.inj (hkind j)
  have hi : σ i < g.entityCount := by
    rw [columnAt?_of_lt hi] at hcolumn_i
    exact (columnAt?_eq_some hcolumn_i).1
  rw [hheights, hheights, ← hstage_i, ← hstage_j]
  exact h (σ i) (σ j) hi (hinj.ne hne) (hcolumn_i.trans (hcolumn.trans hcolumn_j.symm))

/-- Mirroring slots of the canvas keeps a column in order. -/
theorem heightsByStage_foldl_mirrorSlot (hs : 0 < s.bandHeight ∨ 0 < s.minNodeSpacing) (g : Graph)
    {kept : List Slot} (hkept : ∀ slot ∈ kept, slot ∈ (g.stagedCanvas s).slots) :
    g.HeightsByStage s (kept.foldl mirrorSlot (g.firstHeights s)) := by
  refine (heightsByStage_firstHeights hs g).rearranges (rearranges_foldl_mirrorSlot
    (fun slot h => g.stagedCanvas_slots_proper s slot (hkept slot h)) ?_)
  intro slot hslot run hrun i hi j hj
  obtain ⟨k, m, hruns⟩ := exists_runAt_of_mem_slots (hkept slot hslot)
  obtain ⟨_, c, rfl⟩ := (hruns run).mp hrun
  obtain ⟨hcolumn_i, hstage_i⟩ := mem_runAt.mp hi
  obtain ⟨hcolumn_j, hstage_j⟩ := mem_runAt.mp hj
  rw [hcolumn_i, hcolumn_j, hstage_i, hstage_j]

/-! ### What a column shows -/

/-- The ids of entities of a graph, one by one. -/
def idsOf (g : Graph) (is : List Nat) : List String := is.map fun i => (g.node i).id

/-- The drawing of a graph with other heights. -/
noncomputable def drawing (g : Graph) (s : LayoutSettings ℝ) (ys : Heights ℝ) : Layout ℝ :=
  { g.layout s with
    positions := (g.sortedById (List.range g.entityCount)).map fun i =>
      ((g.node i).id, { g.positionAt s i with y := heightOf ys i }) }

theorem drawing_finalHeights (g : Graph) (s : LayoutSettings ℝ) :
    g.drawing s (g.finalHeights s) = g.layout s := by
  unfold drawing
  have hpositions : ((g.sortedById (List.range g.entityCount)).map fun i =>
      ((g.node i).id, { g.positionAt s i with y := heightOf (g.finalHeights s) i })) =
      (g.layout s).positions := (g.positions_layout s).symm
  rw [hpositions]

theorem WellFormed.position?_drawing (hg : g.WellFormed) (s : LayoutSettings ℝ) (ys : Heights ℝ)
    {i : Nat} (hi : i < g.entityCount) : (g.drawing s ys).position? (g.node i).id =
      some { g.positionAt s i with y := heightOf ys i } := by
  unfold Layout.position? drawing
  rw [hg.find?_sortedById _ hi]
  rfl

/-- A column shows the entities that are placed in it, sorted by height. -/
theorem exists_rows_column (g : Graph) (s : LayoutSettings ℝ) (ys : Heights ℝ) (k c : Nat) :
    ∃ rows : List Nat, rows.Perm (g.rowsAt s k c) ∧
      (g.drawing s ys).column k c = g.idsOf rows ∧
      rows.Pairwise fun i j => heightOf ys i ≤ heightOf ys j := by
  let order (i j : Nat) : Ordering :=
    (compare (heightOf ys i) (heightOf ys j)).then (compare (g.node i).id (g.node j).id)
  have horder : Std.TransCmp order := inferInstanceAs (Std.TransCmp
    (compareLex (compareOn fun i => heightOf ys i) (compareOn fun i => (g.node i).id)))
  let placed : List Nat := (g.sortedById (List.range g.entityCount)).filter fun i =>
    (g.placeAt s i).groupIndex == k && (g.placeAt s i).columnIndex == c
  refine ⟨placed.mergeSort fun i j => (order i j).isLE, ?_, ?_, ?_⟩
  · exact (List.mergeSort_perm _ _).trans
      (((g.sortedById_perm _).filter _).trans (g.rowsAt_perm s k c).symm)
  · unfold Layout.column drawing
    dsimp only
    rw [List.filter_map, ← List.map_mergeSort (r := fun i j => (order i j).isLE)
      fun i _ j _ => rfl, List.map_map]
    rfl
  · refine (pairwise_mergeSort_cmp order placed).imp fun {i j} hle => ?_
    by_contra hlt
    have hgt : compare (heightOf ys i) (heightOf ys j) = .gt :=
      compare_gt_iff_gt.mpr (not_le.mp hlt)
    simp only [order, hgt, Ordering.then] at hle
    cases hle

end Graph

namespace Layout

/-- What a column shows of a slot. -/
noncomputable def pieceOf (l : Layout ℝ) (g : Graph) (slot : Slot) (k c : Nat) : List String :=
  (l.column k c).filter fun id => (g.idsOf slot.flatten).contains id

/-- The columns of a drawing show one stage after the other. -/
structure Staged (g : Graph) (slots : List Slot) (l : Layout ℝ) : Prop where
  /-- From top to bottom stages do not fall, and heights are distinct. -/
  ordered : ∀ k c, (l.column k c).Pairwise fun a b => ∃ p q,
    l.position? a = some p ∧ l.position? b = some q ∧ p.stageIndex ≤ q.stageIndex ∧ p.y < q.y
  /-- What a column has of a slot stands together. -/
  contiguous : ∀ slot ∈ slots, ∀ k c, l.pieceOf g slot k c <:+: l.column k c
  /-- It is a run of the slot, as it was at first or upside down. -/
  shown : ∀ slot ∈ slots, ∀ run ∈ slot, ∃ k c,
    l.pieceOf g slot k c = g.idsOf run ∨ l.pieceOf g slot k c = (g.idsOf run).reverse

end Layout

namespace Graph

variable {g : Graph} {s : LayoutSettings ℝ} {ys : Heights ℝ}

/-- The rows that a column shows: those who are placed in it, heights growing and stages not
falling. -/
structure Shows (g : Graph) (s : LayoutSettings ℝ) (ys : Heights ℝ) (k c : Nat)
    (rows : List Nat) : Prop where
  perm : rows.Perm (g.rowsAt s k c)
  column_eq : (g.drawing s ys).column k c = g.idsOf rows
  sorted : rows.Pairwise fun i j =>
    heightOf ys i < heightOf ys j ∧ g.staging.stage i ≤ g.staging.stage j

theorem HeightsByStage.exists_shows (h : g.HeightsByStage s ys) (k c : Nat) :
    ∃ rows, g.Shows s ys k c rows := by
  obtain ⟨rows, hperm, hcolumn, hsorted⟩ := g.exists_rows_column s ys k c
  have hnodup : rows.Nodup := hperm.nodup_iff.mpr (g.nodup_rowsAt s k c)
  refine ⟨rows, hperm, hcolumn, (hsorted.and hnodup).imp_of_mem ?_⟩
  rintro i j hi hj ⟨hle, hne⟩
  have hi := mem_rowsAt.mp (hperm.mem_iff.mp hi)
  have hj := mem_rowsAt.mp (hperm.mem_iff.mp hj)
  obtain ⟨hdistinct, hstage⟩ := h i j (columnAt?_eq_some hi).1 hne (hi.trans hj.symm)
  have hlt := lt_of_le_of_ne hle hdistinct
  exact ⟨hlt, hstage hlt⟩

theorem WellFormed.mem_idsOf (hg : g.WellFormed) {is : List Nat} (his : ∀ i ∈ is, i < g.entityCount)
    {i : Nat} (hi : i < g.entityCount) : (g.node i).id ∈ g.idsOf is ↔ i ∈ is := by
  unfold idsOf
  rw [List.mem_map]
  constructor
  · rintro ⟨j, hj, heq⟩
    rwa [← hg.node_id_inj (his j hj) hi heq]
  · intro h
    exact ⟨i, h, rfl⟩

theorem filter_idsOf (g : Graph) (is : List Nat) (p : String → Bool) :
    (g.idsOf is).filter p = g.idsOf (is.filter fun i => p (g.node i).id) :=
  List.filter_map ..

namespace Shows

variable {k c : Nat} {rows : List Nat} (h : g.Shows s ys k c rows)

include h

theorem columnAt?_eq {i : Nat} (hi : i ∈ rows) : g.columnAt? s i = some (k, c) :=
  mem_rowsAt.mp (h.perm.mem_iff.mp hi)

theorem lt {i : Nat} (hi : i ∈ rows) : i < g.entityCount :=
  (columnAt?_eq_some (h.columnAt?_eq hi)).1

/-- From top to bottom stages do not fall, and heights grow. -/
theorem ordered (hg : g.WellFormed) : ((g.drawing s ys).column k c).Pairwise fun a b => ∃ p q,
    (g.drawing s ys).position? a = some p ∧ (g.drawing s ys).position? b = some q ∧
      p.stageIndex ≤ q.stageIndex ∧ p.y < q.y := by
  rw [h.column_eq, idsOf, List.pairwise_map]
  refine h.sorted.imp_of_mem fun {i j} hi hj hij => ?_
  exact ⟨_, _, hg.position?_drawing s ys (h.lt hi), hg.position?_drawing s ys (h.lt hj),
    hij.2, hij.1⟩

/-- What a column shows of a slot are its rows of the slot's stage, if the slot is of the same
lane, and nothing otherwise. -/
theorem pieceOf_eq (hg : g.WellFormed) {slot : Slot} (hslot : slot ∈ (g.stagedCanvas s).slots)
    {k' m : Nat} (hruns : ∀ run, run ∈ slot ↔ run ≠ [] ∧ ∃ c, run = g.runAt s k' c m) :
    (g.drawing s ys).pieceOf g slot k c =
      if k = k' then g.idsOf (rows.filter (g.staging.stage · == m)) else [] := by
  have hlt := (g.canvas_slots_proper s g.staging.stage slot hslot).lt
  have hmem : ∀ i ∈ rows, (g.node i).id ∈ g.idsOf slot.flatten ↔
      k = k' ∧ g.staging.stage i = m := by
    intro i hi
    rw [hg.mem_idsOf hlt (h.lt hi), mem_flatten_slot_iff hruns, h.columnAt?_eq hi]
    simp
  rw [Layout.pieceOf, h.column_eq, filter_idsOf]
  split
  · rename_i heq
    refine congrArg g.idsOf (List.filter_congr fun i hi => ?_)
    rw [Bool.eq_iff_iff, List.contains_iff_mem, hmem i hi, beq_iff_eq]
    exact and_iff_right heq
  · rename_i hne
    rw [List.filter_eq_nil_iff.mpr fun i hi => ?_]
    · rfl
    · rw [List.contains_iff_mem, hmem i hi]
      exact fun hi => hne hi.1

end Shows

/-- However many slots have been mirrored, the heights of a run grow from its first entity to
its last, or from its last to its first. -/
theorem pairwise_heights_run (hs : 0 < s.bandHeight ∨ 0 < s.minNodeSpacing) {kept : List Slot}
    (hkept : ∀ slot ∈ kept, slot ∈ (g.stagedCanvas s).slots) {slot : Slot}
    (hslot : slot ∈ (g.stagedCanvas s).slots) {run : List Nat} (hrun : run ∈ slot) :
    let grows := fun i j => heightOf (kept.foldl mirrorSlot (g.firstHeights s)) i <
      heightOf (kept.foldl mirrorSlot (g.firstHeights s)) j
    run.Pairwise grows ∨ run.reverse.Pairwise grows := by
  intro grows
  obtain ⟨k, m, hruns⟩ := exists_runAt_of_mem_slots hslot
  obtain ⟨_, c, hrunAt⟩ := (hruns run).mp hrun
  have hfirst : (run.map (heightOf (g.firstHeights s))).Pairwise (· < ·) := by
    rw [List.pairwise_map, hrunAt]
    exact (pairwise_firstHeights hs g k c).sublist List.filter_sublist
  have hmap := map_heightOf_foldl_mirrorSlot (g.stagedCanvas_slots_proper s)
    ((g.flatten_slots_perm s).nodup_iff.mpr List.nodup_range) hkept hslot hrun
  split at hmap
  · refine .inr (List.pairwise_map.mp ?_)
    rwa [List.map_reverse, hmap, List.reverse_reverse]
  · refine .inl (List.pairwise_map.mp ?_)
    rwa [hmap]

/-- Any number of mirrorings leaves the columns in order. -/
theorem WellFormed.staged_drawing (hg : g.WellFormed)
    (hs : 0 < s.bandHeight ∨ 0 < s.minNodeSpacing) {kept : List Slot}
    (hkept : ∀ slot ∈ kept, slot ∈ (g.stagedCanvas s).slots) :
    (g.drawing s (kept.foldl mirrorSlot (g.firstHeights s))).Staged g
      (g.stagedCanvas s).slots := by
  have hstaged := heightsByStage_foldl_mirrorSlot hs g hkept
  refine ⟨?_, ?_, ?_⟩
  · intro k c
    obtain ⟨rows, hshows⟩ := hstaged.exists_shows k c
    exact hshows.ordered hg
  · intro slot hslot k c
    obtain ⟨k', m, hruns⟩ := exists_runAt_of_mem_slots hslot
    obtain ⟨rows, hshows⟩ := hstaged.exists_shows k c
    rw [hshows.pieceOf_eq hg hslot hruns, hshows.column_eq]
    split
    · exact (isInfix_filter_beq (hshows.sorted.imp And.right) m).map _
    · exact List.nil_infix
  · intro slot hslot run hrun
    obtain ⟨k, m, hruns⟩ := exists_runAt_of_mem_slots hslot
    obtain ⟨_, c, hrunAt⟩ := (hruns run).mp hrun
    obtain ⟨rows, hshows⟩ := hstaged.exists_shows k c
    -- The piece has the entities of the run, sorted by height, and so has the run.
    have hpiece : (rows.filter (g.staging.stage · == m)).Perm run :=
      hrunAt ▸ hshows.perm.filter _
    have hsorted := (hshows.sorted.imp And.left).sublist
      (List.filter_sublist (p := (g.staging.stage · == m)))
    refine ⟨k, c, ?_⟩
    rw [hshows.pieceOf_eq hg hslot hruns, if_pos rfl]
    rcases pairwise_heights_run hs hkept hslot hrun with hgrows | hgrows
    · left
      rw [hpiece.eq_of_pairwise (fun _ _ _ _ h h' => absurd h' h.asymm) hsorted hgrows]
    · right
      rw [(hpiece.trans (List.reverse_perm run).symm).eq_of_pairwise
        (fun _ _ _ _ h h' => absurd h' h.asymm) hsorted hgrows, idsOf, idsOf, List.map_reverse]

/-- **Columns stay in the order of their stages.** For every graph and all settings that set
the rows of a column apart, a slot holds the entities of one group and one stage. However many
slots have been mirrored, and in whatever order, every column shows stages that do not fall and
heights that differ, and of every slot one piece, which is a run of the slot. So it is before
the reduction of crossings and after it. -/
theorem layout_staged {g : Graph} (hg : g.WellFormed) {s : LayoutSettings ℝ}
    (hs : 0 < s.bandHeight ∨ 0 < s.minNodeSpacing) :
    let slots := (g.stagedCanvas s).slots
    (∀ slot ∈ slots, ∃ k m, (g.layout s.unreduced).IsSlot g s k m slot) ∧
    (∀ kept : List Slot, (∀ slot ∈ kept, slot ∈ slots) →
      (g.drawing s (kept.foldl mirrorSlot (g.firstHeights s))).Staged g slots) ∧
    (g.layout s.unreduced).Staged g slots ∧ (g.layout s).Staged g slots := by
  intro slots
  have hlayout : ∀ s : LayoutSettings ℝ, 0 < s.bandHeight ∨ 0 < s.minNodeSpacing →
      (g.layout s).Staged g (g.stagedCanvas s).slots := by
    intro s hs
    obtain ⟨kept, hkept, hfinal⟩ := g.exists_kept_finalHeights s
    rw [← drawing_finalHeights, hfinal]
    exact hg.staged_drawing hs hkept
  exact ⟨fun slot h => hg.isSlot_of_mem_slots h, fun kept hkept => hg.staged_drawing hs hkept,
    hlayout s.unreduced hs, hlayout s hs⟩

/-- The callees stay above the callers when their run is mirrored, and after the reduction. -/
theorem layout_staged_twisted :
    let s : LayoutSettings ℝ := .standard
    let slots := (twisted.stagedCanvas s).slots
    twisted.WellFormed ∧ 0 < s.bandHeight ∧ [[2, 3]] ∈ slots ∧
      (twisted.drawing s (mirrorSlot (twisted.firstHeights s) [[2, 3]])).Staged twisted slots ∧
      (twisted.layout s).Staged twisted slots := by
  intro s slots
  have hg : twisted.WellFormed := wellFormed_ofInsertions _ _
  have hs : 0 < s.bandHeight := by
    show (0 : ℝ) < ((900 : ℕ) : ℝ)
    norm_num
  have hslot : [[2, 3]] ∈ slots := by
    have hslots : slots = [[[2, 3]], [[0, 1]]] := slots_twisted
    rw [hslots]
    exact List.mem_cons_self
  obtain ⟨_, hkept, _, hstaged⟩ := layout_staged hg (.inl hs)
  exact ⟨hg, hs, hslot, hkept [[[2, 3]]] (List.forall_mem_singleton.mpr hslot), hstaged⟩

end Graph

end CallAtlas
