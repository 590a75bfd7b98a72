import Mathlib
import CallAtlas.Proofs.Layout.Mirroring

/-!
# What the slots of a drawing hold

In a column the entities stand by stage, so **those of one stage stand together**
(`isInfix_filter_beq`). They are a run (`Graph.runAt`), and a slot is all the runs of one lane
and one stage (`Graph.exists_runAt_of_mem_slots`). Since every entity is placed once, every
entity is in one slot, once (`Graph.flatten_slots_perm`).
-/

namespace CallAtlas

/-! ### Sorted lists -/

section Sorted

variable {β : Type} {key : β → Nat} {xs : List β} {m : Nat}

theorem isPrefix_filter_beq (hsorted : xs.Pairwise fun x y => key x ≤ key y)
    (hle : ∀ x ∈ xs, m ≤ key x) : xs.filter (key · == m) <+: xs := by
  induction xs with
  | nil => exact List.prefix_rfl
  | cons x xs ih =>
      obtain ⟨hfirst, hrest⟩ := List.pairwise_cons.mp hsorted
      obtain ⟨hx, hxs⟩ := List.forall_mem_cons.mp hle
      by_cases h : key x = m
      · rw [List.filter_cons, if_pos (beq_iff_eq.mpr h)]
        exact List.cons_prefix_cons.mpr ⟨rfl, ih hrest hxs⟩
      · -- The key is higher, and so are all that follow.
        have hnone : (x :: xs).filter (key · == m) = [] := by
          rw [List.filter_eq_nil_iff]
          intro y hy
          rw [beq_iff_eq]
          rcases List.mem_cons.mp hy with rfl | hy
          · exact h
          · have := hfirst y hy
            omega
        rw [hnone]
        exact List.nil_prefix

/-- In a sorted list, the items with one key stand together. -/
theorem isInfix_filter_beq (hsorted : xs.Pairwise fun x y => key x ≤ key y) (m : Nat) :
    xs.filter (key · == m) <:+: xs := by
  induction xs with
  | nil => exact List.infix_rfl
  | cons x xs ih =>
      obtain ⟨hfirst, hrest⟩ := List.pairwise_cons.mp hsorted
      by_cases h : key x = m
      · refine (isPrefix_filter_beq hsorted fun y hy => ?_).isInfix
        rcases List.mem_cons.mp hy with rfl | hy
        · exact h.ge
        · exact h ▸ hfirst y hy
      · rw [List.filter_cons_of_neg (by simpa using h)]
        exact (ih hrest).trans (List.suffix_cons x xs).isInfix

end Sorted

variable {α : Type} [Coordinate α]

namespace Graph

/-! ### Rows of a column -/

theorem mem_rowsAt {g : Graph} {s : LayoutSettings α} {k c i : Nat} :
    i ∈ g.rowsAt s k c ↔ g.columnAt? s i = some (k, c) := by
  constructor
  · intro h
    rcases g.rowsAt_eq_nil_or_perm s k c with hnil | ⟨lane, hlane, hperm⟩
    · rw [hnil] at h
      cases h
    · rw [hperm.mem_iff] at h
      have hmem : i ∈ lane.members :=
        (g.ranked_perm _).mem_iff.mp (List.mem_of_mem_drop (List.mem_of_mem_take h))
      have hi := ((mem_members (List.mem_of_getElem? hlane)).mp hmem).1
      obtain ⟨rfl, rfl⟩ := (placeAt_iff hlane hi).mpr h
      exact columnAt?_of_lt hi
  · intro h
    obtain ⟨hi, rfl, rfl⟩ := columnAt?_eq_some h
    obtain ⟨_, row, hwithin⟩ := g.withinColumn_placeAt s hi
    have hrow := List.mem_of_getElem? hwithin.row_eq
    rwa [node_placeAt hi] at hrow

theorem nodup_rowsAt (g : Graph) (s : LayoutSettings α) (k c : Nat) : (g.rowsAt s k c).Nodup := by
  rcases g.rowsAt_eq_nil_or_perm s k c with hnil | ⟨lane, hlane, hperm⟩
  · rw [hnil]
    exact List.nodup_nil
  · rw [hperm.nodup_iff]
    have hranked : (g.ranked lane.members).Nodup :=
      (g.ranked_perm _).nodup_iff.mpr (nodup_members (List.mem_of_getElem? hlane))
    exact hranked.sublist ((List.take_sublist _ _).trans (List.drop_sublist _ _))

/-- The rows of a column are taken by the entities that are placed in it. -/
theorem rowsAt_perm (g : Graph) (s : LayoutSettings α) (k c : Nat) :
    (g.rowsAt s k c).Perm ((List.range g.entityCount).filter fun i =>
      (g.placeAt s i).groupIndex == k && (g.placeAt s i).columnIndex == c) := by
  refine (List.perm_ext_iff_of_nodup (g.nodup_rowsAt s k c) (List.nodup_range.filter _)).mpr ?_
  intro i
  rw [mem_rowsAt, List.mem_filter, List.mem_range, Bool.and_eq_true, beq_iff_eq, beq_iff_eq]
  constructor
  · exact columnAt?_eq_some
  · rintro ⟨hi, rfl, rfl⟩
    exact columnAt?_of_lt hi

theorem pairwise_rowsAt (g : Graph) (s : LayoutSettings α) (k c : Nat) :
    (g.rowsAt s k c).Pairwise fun i j => g.staging.stage i ≤ g.staging.stage j :=
  pairwise_rowsOf _ _

/-- Before crossings are reduced, an entity stands in its row. -/
theorem firstHeights_of_rowsAt {g : Graph} {s : LayoutSettings α} {k c row i : Nat}
    (h : (g.rowsAt s k c)[row]? = some i) :
    heightOf (g.firstHeights s) i = s.rowHeight c (g.rowsAt s k c).length row := by
  obtain ⟨hi, rfl, rfl⟩ := columnAt?_eq_some (mem_rowsAt.mp (List.mem_of_getElem? h))
  obtain ⟨_, row', hwithin⟩ := g.withinColumn_placeAt s hi
  have hat := hwithin.row_eq
  rw [node_placeAt hi] at hat
  obtain rfl : row = row' := (List.getElem?_inj (List.getElem?_eq_some_iff.mp h).1
    (g.nodup_rowsAt s _ _)).mp (h.trans hat.symm)
  rw [heightOf_firstHeights]
  exact hwithin.y_eq

/-! ### Runs of a slot -/

/-- What a column has of a stage, from top to bottom. -/
def runAt (g : Graph) (s : LayoutSettings α) (k c m : Nat) : List Nat :=
  (g.rowsAt s k c).filter (g.staging.stage · == m)

theorem mem_runAt {g : Graph} {s : LayoutSettings α} {k c m i : Nat} :
    i ∈ g.runAt s k c m ↔ g.columnAt? s i = some (k, c) ∧ g.staging.stage i = m := by
  rw [runAt, List.mem_filter, mem_rowsAt, beq_iff_eq]

theorem isInfix_runAt (g : Graph) (s : LayoutSettings α) (k c m : Nat) :
    g.runAt s k c m <:+: g.rowsAt s k c :=
  isInfix_filter_beq (g.pairwise_rowsAt s k c) m

/-- A slot holds the runs of one stage in the columns of one lane. -/
theorem exists_runAt_of_mem_slots {g : Graph} {s : LayoutSettings α} {slot : Slot}
    (hslot : slot ∈ (g.stagedCanvas s).slots) :
    ∃ k m, ∀ run, run ∈ slot ↔ run ≠ [] ∧ ∃ c, run = g.runAt s k c m := by
  have hdrawn := g.drawn_stagedCanvas s
  rw [hdrawn.slots_eq, List.mem_flatMap] at hslot
  obtain ⟨⟨lane, geometry⟩, hzip, hslot⟩ := hslot
  obtain ⟨k, hk⟩ := List.mem_iff_getElem?.mp hzip
  obtain ⟨hlane, _⟩ := List.getElem?_zip_eq_some.mp hk
  obtain ⟨m, hruns⟩ := exists_stage_of_mem_slotsOf (sorted_laneColumns g s _ _ _ lane) hslot
  refine ⟨k, m, fun run => (hruns run).trans (and_congr_right fun hne => ?_)⟩
  constructor
  · rintro ⟨placed, hplaced, rfl⟩
    obtain ⟨⟨column, c⟩, hcolumn, rfl⟩ := List.mem_map.mp hplaced
    refine ⟨c, ?_⟩
    rw [runOf_placeColumn, runAt, rowsAt_eq hlane (List.mem_zipIdx_iff_getElem?.mp hcolumn)]
  · rintro ⟨c, rfl⟩
    cases hcolumn : (g.columns lane.members s.maxNodesPerColumn)[c]? with
    | none =>
        -- There is no such column, and so nothing in it.
        exact absurd (by simp [runAt, rowsAt, hlane, hcolumn, rowsOf]) hne
    | some column =>
        refine ⟨_, List.mem_map.mpr ⟨(column, c), List.mem_zipIdx_iff_getElem?.mpr hcolumn, rfl⟩, ?_⟩
        rw [runOf_placeColumn, runAt, rowsAt_eq hlane hcolumn]

/-- **Every entity is in one slot, once.** -/
theorem flatten_slots_perm (g : Graph) (s : LayoutSettings α) :
    (g.stagedCanvas s).slots.flatten.flatten.Perm (List.range g.entityCount) := by
  have hdrawn := g.drawn_stagedCanvas s
  have hplaced : (g.stagedCanvas s).slots.flatten.flatten.Perm
      ((g.stagedCanvas s).placed.map (·.node)) := by
    rw [hdrawn.slots_eq, hdrawn.placed_eq, List.map_flatMap, List.flatten_flatten,
      List.map_flatMap, ← List.flatMap_id', List.flatMap_assoc]
    refine List.Perm.flatMap_left _ fun x _ => ?_
    rw [List.flatMap_id', ← List.flatten_flatten]
    exact flatten_slotsOf_perm _
  have hnodes : (g.stagedCanvas s).placed.map (·.node) = (g.spots s).map (·.node) := by
    rw [← map_spot_placed, List.map_map]
    rfl
  refine hplaced.trans ((List.perm_ext_iff_of_nodup ?_ List.nodup_range).mpr fun i => ?_)
  · rw [hnodes]
    exact g.nodup_nodes_spots s
  · rw [List.mem_range, List.mem_map]
    constructor
    · rintro ⟨p, hp, rfl⟩
      exact node_lt_of_mem_placed hp
    · exact g.exists_mem_placed s

/-- An entity is in the slot of its lane and stage. -/
theorem mem_flatten_slot_iff {g : Graph} {s : LayoutSettings α} {slot : Slot} {k m : Nat}
    (hruns : ∀ run, run ∈ slot ↔ run ≠ [] ∧ ∃ c, run = g.runAt s k c m) {i : Nat} :
    i ∈ slot.flatten ↔ (∃ c, g.columnAt? s i = some (k, c)) ∧ g.staging.stage i = m := by
  rw [List.mem_flatten]
  constructor
  · rintro ⟨run, hrun, hi⟩
    obtain ⟨_, c, rfl⟩ := (hruns run).mp hrun
    obtain ⟨hcolumn, hstage⟩ := mem_runAt.mp hi
    exact ⟨⟨c, hcolumn⟩, hstage⟩
  · rintro ⟨⟨c, hcolumn⟩, hstage⟩
    have hi := mem_runAt.mpr ⟨hcolumn, hstage⟩
    exact ⟨_, (hruns _).mpr ⟨List.ne_nil_of_mem hi, c, rfl⟩, hi⟩

end Graph

end CallAtlas
