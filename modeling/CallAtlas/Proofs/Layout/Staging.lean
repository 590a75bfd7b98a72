import Mathlib
import CallAtlas.Proofs.Graph.Distance
import CallAtlas.Proofs.Graph.Insertion
import CallAtlas.Proofs.Layout.StageWalk

/-!
# Stages are right on every graph

The stages of a graph are those of the graph without the links that close a cycle:
there is a set of links, as many as were counted, each on a cycle, without which no
cycle is left and every stage is one more than the highest stage it leads to.

That no cycle is left needs no argument about the order in which positions were
done. A stage is higher than every stage it leads to outside the cut
(`stage_lt`), so a cycle outside the cut would have to climb for ever.

Without cycles nothing is cut off, and a stage is the length of the longest path
of calls.
-/

namespace CallAtlas.Graph

/-- No position leads back to itself. -/
def Acyclic (R : Nat → Nat → Prop) : Prop := ∀ i, ¬ Relation.TransGen R i i

/-- A call whose link is not in a set of links. -/
def StepOutside (g : Graph) (cut : Finset (Nat × Nat)) (i j : Nat) : Prop :=
  g.Step .downstream i j ∧ (i, j) ∉ cut

/-- The callees of a position in the order the walk takes them. -/
def calleesById (g : Graph) (i : Nat) : List Nat := g.sortedById (g.neighbours .downstream i)

theorem mem_calleesById {g : Graph} {i j : Nat} :
    j ∈ g.calleesById i ↔ g.Step .downstream i j :=
  mem_sortedById.trans mem_neighbours

theorem isEmpty_calleesById {g : Graph} {i j : Nat} (h : g.Step .downstream i j) :
    (g.calleesById i).isEmpty = false := by
  rw [List.isEmpty_eq_false_iff]
  exact List.ne_nil_of_mem (mem_calleesById.mpr h)

theorem WellFormed.calleesById_spec {g : Graph} (hg : g.WellFormed) (i : Nat) :
    (g.calleesById i).Nodup ∧ ∀ d ∈ g.calleesById i, d < g.entityCount := by
  constructor
  · exact (g.sortedById_perm _).nodup_iff.mpr (hg.nodup_neighbours .downstream i)
  · intro d hd
    exact (hg.step_lt (mem_calleesById.mp hd)).2

/-- The whole walk: more depth would have changed nothing, and every position is
done. -/
theorem WellFormed.staging_done {g : Graph} (hg : g.WellFormed) :
    (∀ m ≥ g.entityCount, (g.sortedById (List.range g.entityCount)).foldl
      (Staging.visitRoot g.calleesById m) (Staging.start g.entityCount) = g.staging) ∧
    ∃ cut, Staging.Sound g.calleesById g.entityCount [] cut g.staging ∧
      ∀ i < g.entityCount, g.staging.mark i = .done := by
  have hroots : ∀ i, i ∈ g.sortedById (List.range g.entityCount) ↔ i < g.entityCount :=
    fun i => mem_sortedById.trans List.mem_range
  obtain ⟨hstable, cut, hsound, _, hdone⟩ :=
    (Staging.sound_start g.calleesById g.entityCount).foldl_visitRoot hg.calleesById_spec
      fun i hi => (hroots i).mp hi
  exact ⟨hstable, cut, hsound, fun i hi => hdone i ((hroots i).mpr hi)⟩

/-- The whole walk: every position has the stage that its callees outside the cut
give it. -/
theorem WellFormed.staging_walk {g : Graph} (hg : g.WellFormed) :
    (∀ m ≥ g.entityCount, (g.sortedById (List.range g.entityCount)).foldl
      (Staging.visitRoot g.calleesById m) (Staging.start g.entityCount) = g.staging) ∧
    ∃ cut, Staging.Sound g.calleesById g.entityCount [] cut g.staging ∧
      ∀ i < g.entityCount, Staging.HasStage g.calleesById g.staging cut i := by
  obtain ⟨hstable, cut, hsound, hdone⟩ := hg.staging_done
  exact ⟨hstable, cut, hsound, fun i hi => hsound.hasStage i hi (hdone i hi)⟩

theorem WellFormed.size_stages {g : Graph} (hg : g.WellFormed) :
    g.staging.stages.size = g.entityCount := by
  obtain ⟨_, _, hsound, _⟩ := hg.staging_done
  exact hsound.size_stages

/-! ### Stages and calls -/

section

variable {g : Graph} {cut : Finset (Nat × Nat)}
  (hstage : ∀ i < g.entityCount, Staging.HasStage g.calleesById g.staging cut i)

include hstage

/-- A stage is higher than every stage it leads to outside the cut. -/
theorem stage_lt (hg : g.WellFormed) {i j : Nat} (h : g.StepOutside cut i j) :
    g.staging.stage j < g.staging.stage i := by
  obtain ⟨k, hk, heq⟩ := hstage i (hg.step_lt h.1).1
  have hle := hk.le j (mem_calleesById.mpr h.1) h.2
  rw [heq, isEmpty_calleesById h.1, if_neg Bool.false_ne_true]
  omega

theorem acyclic_outside (hg : g.WellFormed) : Acyclic (g.StepOutside cut) := by
  have hclimb : ∀ {i j}, Relation.TransGen (g.StepOutside cut) i j →
      g.staging.stage j < g.staging.stage i := by
    intro i j h
    induction h with
    | single hstep => exact stage_lt hstage hg hstep
    | tail _ hstep ih => exact Nat.lt_trans (stage_lt hstage hg hstep) ih
  exact fun i h => Nat.lt_irrefl _ (hclimb h)

theorem stage_eq_zero {i : Nat} (hi : i < g.entityCount) (h : ∀ j, ¬ g.Step .downstream i j) :
    g.staging.stage i = 0 := by
  rw [(hstage i hi).stage_eq_zero_iff]
  exact List.eq_nil_iff_forall_not_mem.mpr fun j hj => h j (mem_calleesById.mp hj)

theorem stage_eq_succ_sup (hg : g.WellFormed) {i j : Nat} (h : g.Step .downstream i j) :
    g.staging.stage i = 1 + ((Finset.range g.entityCount).filter fun d =>
      g.linked i d = true ∧ (i, d) ∉ cut).sup g.staging.stage := by
  obtain ⟨k, hk, heq⟩ := hstage i (hg.step_lt h).1
  have hmem : ∀ d, d ∈ (Finset.range g.entityCount).filter
      (fun d => g.linked i d = true ∧ (i, d) ∉ cut) ↔ d ∈ g.calleesById i ∧ (i, d) ∉ cut := by
    intro d
    rw [Finset.mem_filter, Finset.mem_range, mem_calleesById]
    constructor
    · intro h
      obtain ⟨_, hlink, hcut⟩ := h
      exact ⟨hlink, hcut⟩
    · intro h
      obtain ⟨hstep, hcut⟩ := h
      exact ⟨(hg.step_lt hstep).2, hstep, hcut⟩
  have hsup : ((Finset.range g.entityCount).filter fun d =>
      g.linked i d = true ∧ (i, d) ∉ cut).sup g.staging.stage = k := by
    apply le_antisymm
    · refine Finset.sup_le fun d hd => ?_
      obtain ⟨hd, hcut⟩ := (hmem d).mp hd
      exact hk.le d hd hcut
    · rcases hk.attained with hzero | ⟨d, hd, hcut, hmax⟩
      · rw [hzero]
        exact Nat.zero_le _
      · rw [← hmax]
        exact Finset.le_sup (f := g.staging.stage) ((hmem d).mpr ⟨hd, hcut⟩)
  rw [heq, isEmpty_calleesById h, if_neg Bool.false_ne_true, hsup, Nat.add_comm]

end

/-! ### Longest paths -/

section

variable {g : Graph} (hstage : ∀ i < g.entityCount, Staging.HasStage g.calleesById g.staging ∅ i)

include hstage

/-- Where nothing is cut off, the stages fall along a path by at least its
length. -/
theorem Path.stage_add_le (hg : g.WellFormed) {i j k : Nat} (p : g.Path .downstream i k j) :
    g.staging.stage j + k ≤ g.staging.stage i := by
  induction p with
  | nil => exact Nat.le_refl _
  | snoc _ hstep ih =>
      have hlt := stage_lt hstage hg ⟨hstep, Finset.notMem_empty _⟩
      omega

/-- A position that is not at stage zero calls one that is a stage below. -/
theorem exists_step_of_stage_succ {i h : Nat} (hi : i < g.entityCount)
    (heq : g.staging.stage i = h + 1) : ∃ j, g.Step .downstream i j ∧ g.staging.stage j = h := by
  obtain ⟨k, hk, hstage_i⟩ := hstage i hi
  rw [heq] at hstage_i
  cases hc : g.calleesById i with
  | nil => rw [hc] at hstage_i; simp at hstage_i
  | cons c cs =>
      have hkh : k = h := by
        rw [hc, List.isEmpty_cons, if_neg Bool.false_ne_true] at hstage_i
        omega
      subst hkh
      have hmem : c ∈ g.calleesById i := by rw [hc]; exact List.mem_cons_self
      rcases hk.attained with hzero | ⟨d, hd, _, hmax⟩
      · -- Only stage zero is called, and something is.
        have hle := hk.le c hmem (Finset.notMem_empty _)
        exact ⟨c, mem_calleesById.mp hmem, by omega⟩
      · exact ⟨d, mem_calleesById.mp hd, hmax⟩

theorem exists_path_of_stage (hg : g.WellFormed) {k : Nat} :
    ∀ {i : Nat}, i < g.entityCount → g.staging.stage i = k → ∃ j, g.Path .downstream i k j := by
  induction k with
  | zero =>
      intro i _ _
      exact ⟨i, .nil⟩
  | succ k ih =>
      intro i hi heq
      obtain ⟨d, hstep, hd⟩ := exists_step_of_stage_succ hstage hi heq
      obtain ⟨j, p⟩ := ih (hg.step_lt hstep).2 hd
      exact ⟨j, p.cons hstep⟩

end

/-- **Staging is right on every graph**, with or without cycles:

* the walk ends by itself, and more depth would change nothing;
* there is a set of links, as many as were counted, each of which lies on a cycle,
  without which there are no cycles, and every stage is zero where nothing is called
  and otherwise one more than the highest stage called outside the set;
* nothing was counted exactly when there is no cycle, self-calls included;
* and then every stage is the length of the longest path of calls. -/
theorem staging_correct {g : Graph} (hg : g.WellFormed) :
    (∀ m ≥ g.entityCount, (g.sortedById (List.range g.entityCount)).foldl
      (Staging.visitRoot g.calleesById m) (Staging.start g.entityCount) = g.staging) ∧
    (∃ cut : Finset (Nat × Nat), cut.card = g.staging.cycleEdges ∧
      (∀ e ∈ cut, g.Step .downstream e.1 e.2 ∧
        Relation.ReflTransGen (g.Step .downstream) e.2 e.1) ∧
      Acyclic (g.StepOutside cut) ∧
      ∀ i < g.entityCount,
        ((∀ j, ¬ g.Step .downstream i j) → g.staging.stage i = 0) ∧
        ((∃ j, g.Step .downstream i j) → g.staging.stage i =
          1 + ((Finset.range g.entityCount).filter fun d =>
            g.linked i d = true ∧ (i, d) ∉ cut).sup g.staging.stage)) ∧
    (g.staging.cycleEdges = 0 ↔ Acyclic (g.Step .downstream)) ∧
    (g.staging.cycleEdges = 0 → ∀ i < g.entityCount,
      IsGreatest { k | ∃ j, g.Path .downstream i k j } (g.staging.stage i)) := by
  obtain ⟨hstable, cut, hsound, hstage⟩ := hg.staging_walk
  have hleads : Staging.Leads g.calleesById = Relation.ReflTransGen (g.Step .downstream) := by
    unfold Staging.Leads
    simp only [mem_calleesById]
  have hcycle : ∀ e ∈ cut, g.Step .downstream e.1 e.2 ∧
      Relation.ReflTransGen (g.Step .downstream) e.2 e.1 := by
    intro e he
    obtain ⟨hmem, hback⟩ := hsound.cut_cycle e he
    rw [hleads] at hback
    exact ⟨mem_calleesById.mp hmem, hback⟩
  have hacyclic := acyclic_outside hstage hg
  have hempty : g.staging.cycleEdges = 0 → cut = ∅ := by
    rw [← hsound.cut_card]
    exact Finset.card_eq_zero.mp
  refine ⟨hstable, ⟨cut, hsound.cut_card, hcycle, hacyclic, ?_⟩, ⟨?_, ?_⟩, ?_⟩
  · intro i hi
    refine ⟨stage_eq_zero hstage hi, ?_⟩
    intro h
    obtain ⟨j, hstep⟩ := h
    exact stage_eq_succ_sup hstage hg hstep
  · intro hzero i hi
    have hnone := hempty hzero
    subst hnone
    have hsame : ∀ a b, g.Step .downstream a b → g.StepOutside ∅ a b :=
      fun _ _ hstep => ⟨hstep, Finset.notMem_empty _⟩
    exact hacyclic i (Relation.TransGen.mono hsame i i hi)
  · intro hno
    rw [← hsound.cut_card, Finset.card_eq_zero, Finset.eq_empty_iff_forall_notMem]
    intro e he
    obtain ⟨hstep, hback⟩ := hcycle e he
    exact hno e.1 (Relation.TransGen.head' hstep hback)
  · intro hzero i hi
    have hnone := hempty hzero
    subst hnone
    refine ⟨exists_path_of_stage hstage hg hi rfl, ?_⟩
    rintro k ⟨j, p⟩
    have hle := p.stage_add_le hstage hg
    omega

/-- The ring has a cycle, the self-call of its second function, so links of it are
counted. -/
theorem staging_correct_ring : ring.WellFormed ∧ ring.staging.cycleEdges ≠ 0 := by
  have hg : ring.WellFormed := wellFormed_ofInsertions _ _
  have hself : ring.linked 1 1 = true := by decide +kernel
  refine ⟨hg, fun hzero => ?_⟩
  exact (staging_correct hg).2.2.1.mp hzero 1 (.single hself)

end CallAtlas.Graph
