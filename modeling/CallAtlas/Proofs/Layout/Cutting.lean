import Mathlib.Data.List.Nodup
import CallAtlas.Layout.Engine

/-!
# Cutting columns into runs

The slots of a lane come out of one loop over its columns. It holds on to the run at hand
until the stage changes, hands it over to the slot of its stage then, and hands over the last
run of a column at the column's end.

**No entity is dropped and none doubled**, in whatever order the stages of a column come:
what the slots and the run at hand hold between them is what they held before, and the entity
that was taken (`Cutting.nodes_step_perm`). So the slots of a lane hold the entities of its
columns (`flatten_slotsOf_perm`).

**In a column that is sorted by stage, no stage comes up twice.** Such a column gives one run
at most to each slot, and this run is all that the column has of the stage
(`Cutting.Cuts.step`). So a slot is what the columns have of its stage, column by column
(`exists_stage_of_mem_slotsOf`).
-/

namespace CallAtlas

variable {α : Type}

namespace SlotTable

/-! ### Slots by stage -/

/-- All that the slots hold. -/
def nodes (t : SlotTable) : List Nat := t.flatMap (·.2.flatten)

/-- The slot of a stage, empty where there is none. -/
def slotAt (t : SlotTable) (stage : Nat) : Slot := (t.lookup stage).getD []

/-- Every stage has one slot, and lower stages come first. -/
def Ordered (t : SlotTable) : Prop := (t.map (·.1)).Pairwise (· < ·)

theorem nodes_push_perm (t : SlotTable) (stage : Nat) (run : List Nat) :
    (t.push stage run).nodes.Perm (t.nodes ++ run) := by
  induction t with
  | nil => simp [push, nodes]
  | cons entry rest ih =>
      obtain ⟨m, slot⟩ := entry
      unfold nodes at ih ⊢
      rw [push]
      split
      · simp only [List.flatMap_cons, List.flatten_singleton]
        exact List.perm_append_comm
      split
      · simp only [List.flatMap_cons, List.append_assoc]
        exact ih.append_left _
      · simp only [List.flatMap_cons, List.flatten_append, List.flatten_singleton,
          List.append_assoc]
        exact List.perm_append_comm.append_left _

theorem mem_stages_push {t : SlotTable} {stage m : Nat} {run : List Nat} :
    m ∈ (t.push stage run).map (·.1) ↔ m = stage ∨ m ∈ t.map (·.1) := by
  induction t with
  | nil => simp [push]
  | cons entry rest ih =>
      obtain ⟨m', slot⟩ := entry
      rw [push]
      split
      · simp
      split
      · simp only [List.map_cons, List.mem_cons, ih]
        tauto
      · obtain rfl : m' = stage := by omega
        simp

theorem Ordered.push {t : SlotTable} (h : t.Ordered) (stage : Nat) (run : List Nat) :
    (t.push stage run).Ordered := by
  induction t with
  | nil => simp [SlotTable.push, Ordered]
  | cons entry rest ih =>
      obtain ⟨m, slot⟩ := entry
      obtain ⟨hfirst, hrest⟩ := List.pairwise_cons.mp h
      rw [SlotTable.push]
      split
      · rename_i hlt
        refine List.pairwise_cons.mpr ⟨?_, h⟩
        intro m' hm'
        rcases List.mem_cons.mp hm' with rfl | hm'
        · exact hlt
        · exact Nat.lt_trans hlt (hfirst m' hm')
      split
      · rename_i hgt
        refine List.pairwise_cons.mpr ⟨?_, ih hrest⟩
        intro m' hm'
        rcases mem_stages_push.mp hm' with rfl | hm'
        · exact hgt
        · exact hfirst m' hm'
      · exact List.pairwise_cons.mpr ⟨hfirst, hrest⟩

theorem slotAt_cons (m : Nat) (slot : Slot) (rest : SlotTable) (stage : Nat) :
    slotAt ((m, slot) :: rest) stage = if stage = m then slot else slotAt rest stage := by
  unfold slotAt
  rw [List.lookup_cons]
  by_cases h : stage = m
  · rw [if_pos h, beq_iff_eq.mpr h, Option.getD_some]
  · rw [if_neg h, beq_false_of_ne h]

theorem slotAt_of_forall_ne {t : SlotTable} {stage : Nat} (h : ∀ m ∈ t.map (·.1), m ≠ stage) :
    t.slotAt stage = [] := by
  induction t with
  | nil => rfl
  | cons entry rest ih =>
      obtain ⟨hfirst, hrest⟩ := List.forall_mem_cons.mp h
      rw [slotAt_cons, if_neg (Ne.symm hfirst), ih hrest]

theorem Ordered.slotAt_of_mem {t : SlotTable} (h : t.Ordered) {stage : Nat} {slot : Slot}
    (hmem : (stage, slot) ∈ t) : t.slotAt stage = slot := by
  induction t with
  | nil => cases hmem
  | cons entry rest ih =>
      obtain ⟨m, slot'⟩ := entry
      obtain ⟨hfirst, hrest⟩ := List.pairwise_cons.mp h
      rw [slotAt_cons]
      rcases List.mem_cons.mp hmem with heq | hmem
      · obtain ⟨rfl, rfl⟩ := Prod.mk.inj heq
        exact if_pos rfl
      · have hlt : m < stage := hfirst stage (List.mem_map_of_mem hmem)
        rw [if_neg (Nat.ne_of_gt hlt), ih hrest hmem]

/-- A run goes to the end of the slot of its stage, and other slots stay as they are. -/
theorem Ordered.slotAt_push {t : SlotTable} (h : t.Ordered) (stage : Nat) (run : List Nat)
    (m : Nat) :
    (t.push stage run).slotAt m = if m = stage then t.slotAt stage ++ [run] else t.slotAt m := by
  induction t with
  | nil => rw [SlotTable.push, slotAt_cons]; rfl
  | cons entry rest ih =>
      obtain ⟨m', slot⟩ := entry
      obtain ⟨hfirst, hrest⟩ := List.pairwise_cons.mp h
      rw [SlotTable.push]
      split
      · -- All stages of the table are higher, so the slot is a new one.
        rename_i hlt
        have hnew : slotAt ((m', slot) :: rest) stage = [] := by
          refine slotAt_of_forall_ne fun k hk => ?_
          rcases List.mem_cons.mp hk with rfl | hk
          · exact Nat.ne_of_gt hlt
          · exact Nat.ne_of_gt (Nat.lt_trans hlt (hfirst k hk))
        rw [slotAt_cons, hnew, List.nil_append]
      split
      · rename_i hgt
        rw [slotAt_cons, ih hrest, slotAt_cons, slotAt_cons, if_neg (Nat.ne_of_gt hgt)]
        by_cases hm : m = m'
        · rw [if_pos hm, if_neg (by omega), if_pos hm]
        · rw [if_neg hm, if_neg hm]
      · obtain rfl : m' = stage := by omega
        rw [slotAt_cons, slotAt_cons, slotAt_cons, if_pos rfl]
        by_cases hm : m = m'
        · rw [if_pos hm, if_pos hm]
        · rw [if_neg hm, if_neg hm, if_neg hm]

end SlotTable

/-! ### Nothing is dropped or doubled -/

namespace Cutting

/-- All that the slots and the run at hand hold. -/
def nodes (c : Cutting) : List Nat := c.slots.nodes ++ (c.pending.map (·.2)).getD []

theorem nodes_step_perm (c : Cutting) (p : Placed α) :
    (c.step p).nodes.Perm (c.nodes ++ [p.node]) := by
  obtain ⟨slots, _ | ⟨stage, run⟩⟩ := c
  · simp [step, nodes]
  · unfold step nodes
    dsimp only
    split
    · simp
    · simpa using (slots.nodes_push_perm stage run).append_right [p.node]

theorem nodes_flush_perm (c : Cutting) : c.flush.nodes.Perm c.nodes := by
  obtain ⟨slots, _ | ⟨stage, run⟩⟩ := c
  · simp [flush, nodes]
  · exact slots.nodes_push_perm stage run

theorem nodes_foldl_step_perm (column : List (Placed α)) (c : Cutting) :
    (column.foldl step c).nodes.Perm (c.nodes ++ column.map (·.node)) := by
  induction column generalizing c with
  | nil => simp
  | cons p column ih =>
      refine (ih (c.step p)).trans ?_
      simpa using (c.nodes_step_perm p).append_right (column.map (·.node))

end Cutting

theorem nodes_cutColumn_perm (slots : SlotTable) (column : List (Placed α)) :
    (cutColumn slots column).nodes.Perm (slots.nodes ++ column.map (·.node)) := by
  refine (Cutting.nodes_flush_perm _).trans ((Cutting.nodes_foldl_step_perm column _).trans ?_)
  simp [Cutting.nodes]

theorem nodes_foldl_cutColumn_perm (columns : List (List (Placed α))) (t : SlotTable) :
    (columns.foldl cutColumn t).nodes.Perm (t.nodes ++ columns.flatten.map (·.node)) := by
  induction columns generalizing t with
  | nil => simp
  | cons column columns ih =>
      refine (ih (cutColumn t column)).trans ?_
      simpa using (nodes_cutColumn_perm t column).append_right (columns.flatten.map (·.node))

/-- **The slots of a lane hold the entities of its columns**, each as often as the columns
do. -/
theorem flatten_slotsOf_perm (columns : List (List (Placed α))) :
    (slotsOf columns).flatten.flatten.Perm (columns.flatten.map (·.node)) := by
  have hnodes : (slotsOf columns).flatten.flatten = (columns.foldl cutColumn []).nodes := by
    unfold slotsOf SlotTable.nodes
    rw [List.flatten_flatten, List.map_map, List.flatMap_def]
    rfl
  rw [hnodes]
  exact nodes_foldl_cutColumn_perm columns []

/-! ### One run for each stage -/

/-- What a column has of a stage, from top to bottom. -/
def runOf (column : List (Placed α)) (stage : Nat) : List Nat :=
  (column.filter (·.stage == stage)).map (·.node)

/-- The part of a slot that comes from one column: a run, unless the column has nothing of
the stage. -/
def partOf (column : List (Placed α)) (stage : Nat) : Slot :=
  [runOf column stage].filter (!·.isEmpty)

theorem runOf_append_singleton (column : List (Placed α)) (p : Placed α) (stage : Nat) :
    runOf (column ++ [p]) stage =
      if p.stage = stage then runOf column stage ++ [p.node] else runOf column stage := by
  unfold runOf
  by_cases h : p.stage = stage <;> simp [h]

theorem mem_partOf {column : List (Placed α)} {stage : Nat} {run : List Nat} :
    run ∈ partOf column stage ↔ run ≠ [] ∧ run = runOf column stage := by
  simp only [partOf, List.mem_filter, List.mem_singleton, Bool.not_eq_true',
    List.isEmpty_eq_false_iff]
  exact and_comm

/-- How far a column has been cut when the entities in `done` have been taken, the last of
them of the stage `stage`: the run of this stage is at hand, and the runs of the stages before
it have been handed over. -/
structure Cutting.Cuts (t : SlotTable) (done : List (Placed α)) (stage : Nat) (c : Cutting) :
    Prop where
  ordered : c.slots.Ordered
  le : ∀ p ∈ done, p.stage ≤ stage
  run_ne_nil : runOf done stage ≠ []
  pending_eq : c.pending = some (stage, runOf done stage)
  slotAt_eq : ∀ m, c.slots.slotAt m = t.slotAt m ++ if m = stage then [] else partOf done m

namespace Cutting

variable {t : SlotTable} {done : List (Placed α)} {stage : Nat} {c : Cutting}

/-- The first entity of a column begins its first run. -/
theorem cuts_first (ht : t.Ordered) (p : Placed α) :
    (step { slots := t, pending := none } p).Cuts t [p] p.stage := by
  have hrun : runOf [p] p.stage = [p.node] := by simp [runOf]
  refine ⟨ht, by simp, by simp [hrun], by rw [hrun]; rfl, fun m => ?_⟩
  show t.slotAt m = _
  split
  · rw [List.append_nil]
  · rename_i hm
    simp [partOf, runOf, Ne.symm hm]

/-- The next entity goes on with the run at hand, or ends it for good: its stage is higher
than all before, so nothing has been seen of it. -/
theorem Cuts.step (h : c.Cuts t done stage) {p : Placed α} (hp : stage ≤ p.stage) :
    (c.step p).Cuts t (done ++ [p]) p.stage := by
  have hle : ∀ q ∈ done ++ [p], q.stage ≤ p.stage := by
    intro q hq
    rcases List.mem_append.mp hq with hq | hq
    · exact Nat.le_trans (h.le q hq) hp
    · obtain rfl := List.mem_singleton.mp hq
      exact Nat.le_refl _
  have hrun : runOf (done ++ [p]) p.stage = runOf done p.stage ++ [p.node] := by
    rw [runOf_append_singleton, if_pos rfl]
  have hpart : ∀ m, m ≠ p.stage → partOf (done ++ [p]) m = partOf done m := by
    intro m hm
    rw [partOf, runOf_append_singleton, if_neg (Ne.symm hm), partOf]
  unfold Cutting.step
  rw [h.pending_eq]
  dsimp only
  split
  · rename_i hstage
    refine ⟨h.ordered, hle, by simp [hrun], by rw [hrun, hstage], fun m => ?_⟩
    rw [h.slotAt_eq, hstage]
    split
    · rfl
    · rename_i hm
      rw [hpart m (hstage ▸ hm)]
  · rename_i hstage
    have hlt : stage < p.stage := by omega
    have hnone : runOf done p.stage = [] := by
      simp only [runOf, List.map_eq_nil_iff, List.filter_eq_nil_iff, beq_iff_eq]
      intro q hq
      exact Nat.ne_of_lt (Nat.lt_of_le_of_lt (h.le q hq) hlt)
    refine ⟨h.ordered.push _ _, hle, by simp [hrun], by rw [hrun, hnone]; rfl, fun m => ?_⟩
    rw [h.ordered.slotAt_push, h.slotAt_eq, h.slotAt_eq, if_pos rfl, List.append_nil]
    by_cases hm : m = stage
    · have hnext : m ≠ p.stage := by omega
      have hpartOf : partOf done stage = [runOf done stage] := by
        simp [partOf, h.run_ne_nil]
      rw [if_pos hm, if_neg hnext, hpart m hnext, hm, hpartOf]
    · rw [if_neg hm, if_neg hm]
      split
      · rename_i hm'
        simp [partOf, hm', hnone]
      · rename_i hm'
        rw [hpart m hm']

theorem Cuts.foldl_step (h : c.Cuts t done stage) {rest : List (Placed α)}
    (hsorted : (done ++ rest).Pairwise fun p q => p.stage ≤ q.stage)
    (hstage : ∀ p ∈ rest, stage ≤ p.stage) :
    ∃ last, (rest.foldl Cutting.step c).Cuts t (done ++ rest) last := by
  induction rest generalizing done stage c with
  | nil => exact ⟨stage, by simpa using h⟩
  | cons p rest ih =>
      obtain ⟨hp, _⟩ := List.forall_mem_cons.mp hstage
      rw [List.append_cons] at hsorted ⊢
      refine ih (h.step hp) hsorted fun q hq => ?_
      exact (List.pairwise_append.mp hsorted).2.2 p (by simp) q hq

/-- At the end of the column, the run at hand is the last one missing. -/
theorem Cuts.flush (h : c.Cuts t done stage) :
    c.flush.Ordered ∧ ∀ m, c.flush.slotAt m = t.slotAt m ++ partOf done m := by
  unfold Cutting.flush
  rw [h.pending_eq]
  refine ⟨h.ordered.push _ _, fun m => ?_⟩
  dsimp only
  rw [h.ordered.slotAt_push, h.slotAt_eq, h.slotAt_eq, if_pos rfl, List.append_nil]
  by_cases hm : m = stage
  · simp [partOf, hm, h.run_ne_nil]
  · rw [if_neg hm, if_neg hm]

end Cutting

/-- A column that is sorted by stage adds to every slot what it has of the stage, in one
run. -/
theorem cutColumn_slotAt {t : SlotTable} (ht : t.Ordered) {column : List (Placed α)}
    (hsorted : column.Pairwise fun p q => p.stage ≤ q.stage) :
    (cutColumn t column).Ordered ∧
      ∀ m, (cutColumn t column).slotAt m = t.slotAt m ++ partOf column m := by
  cases column with
  | nil => exact ⟨ht, fun m => by simp [cutColumn, Cutting.flush, partOf, runOf]⟩
  | cons p rest =>
      obtain ⟨last, hcuts⟩ := (Cutting.cuts_first ht p).foldl_step hsorted
        (List.pairwise_cons.mp hsorted).1
      exact hcuts.flush

theorem foldl_cutColumn_slotAt {t : SlotTable} (ht : t.Ordered) {columns : List (List (Placed α))}
    (hsorted : ∀ column ∈ columns, column.Pairwise fun p q => p.stage ≤ q.stage) :
    (columns.foldl cutColumn t).Ordered ∧ ∀ m,
      (columns.foldl cutColumn t).slotAt m = t.slotAt m ++ columns.flatMap (partOf · m) := by
  induction columns generalizing t with
  | nil => exact ⟨ht, by simp⟩
  | cons column columns ih =>
      obtain ⟨hcolumn, hcolumns⟩ := List.forall_mem_cons.mp hsorted
      obtain ⟨hcut, hslot⟩ := cutColumn_slotAt ht hcolumn
      obtain ⟨hordered, heq⟩ := ih hcut hcolumns
      refine ⟨hordered, fun m => ?_⟩
      rw [List.foldl_cons, heq, hslot, List.append_assoc, List.flatMap_cons]

/-- **The runs of a slot are what the columns have of its stage.** -/
theorem exists_stage_of_mem_slotsOf {columns : List (List (Placed α))}
    (hsorted : ∀ column ∈ columns, column.Pairwise fun p q => p.stage ≤ q.stage) {slot : Slot}
    (h : slot ∈ slotsOf columns) :
    ∃ stage, ∀ run, run ∈ slot ↔ run ≠ [] ∧ ∃ column ∈ columns, run = runOf column stage := by
  obtain ⟨⟨stage, slot⟩, hmem, rfl⟩ := List.mem_map.mp h
  obtain ⟨hordered, hslot⟩ :=
    foldl_cutColumn_slotAt (t := []) List.Pairwise.nil hsorted
  have heq : slot = columns.flatMap (partOf · stage) :=
    (hordered.slotAt_of_mem hmem).symm.trans (hslot stage)
  refine ⟨stage, fun run => ?_⟩
  rw [heq, List.mem_flatMap]
  simp only [mem_partOf]
  exact ⟨fun ⟨column, hcolumn, hne, hrun⟩ => ⟨hne, column, hcolumn, hrun⟩,
    fun ⟨hne, column, hcolumn, hrun⟩ => ⟨column, hcolumn, hne, hrun⟩⟩

end CallAtlas
