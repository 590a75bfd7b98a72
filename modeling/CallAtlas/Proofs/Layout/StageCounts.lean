import Mathlib
import CallAtlas.Proofs.Layout.Partition
import CallAtlas.Proofs.Layout.StagingWords

/-!
# Stages leave no gaps

Cycles cannot inflate the stages or leave holes in them. A stage from two on rests on a
callee one stage below, because the highest callee was looked at and not passed over
(`Staging.HasStage.exists_callee`); only stage one may rest on passed over links alone. So
every stage but zero below an inhabited one is inhabited, none exceeds the number of
entities, and a layout counts at least one entity at every stage but the first.
-/

namespace CallAtlas

/-- The stages of a graph start where nothing is called, leave no gaps, and reach no further
than there are entities. -/
structure Graph.GaplessStages (g : Graph) : Prop where
  stage_le : ∀ i < g.entityCount, g.staging.stage i ≤ g.entityCount
  stage_eq_zero_iff : ∀ i < g.entityCount,
    g.staging.stage i = 0 ↔ ∀ j, ¬ g.Step .downstream i j
  /-- Whoever is at stage two or above calls someone one stage below. -/
  exists_callee : ∀ i < g.entityCount, ∀ k ≥ 2, g.staging.stage i = k →
    ∃ j, g.Step .downstream i j ∧ g.staging.stage j = k - 1
  inhabited : ∀ i < g.entityCount, ∀ k, 1 ≤ k → k ≤ g.staging.stage i →
    ∃ j < g.entityCount, g.staging.stage j = k

/-- The counts of a layout by stage: one for each stage up to the highest. -/
structure Layout.StageCounts {α : Type} (g : Graph) (l : Layout α) : Prop where
  /-- As many stages are counted as are needed for all entities. -/
  stageCount_eq : l.metrics.stageCount =
    (Finset.range g.entityCount).sup fun i => g.staging.stage i + 1
  length_nodesPerStage : l.metrics.nodesPerStage.length = l.metrics.stageCount
  nodesPerStage_getElem? : ∀ k < l.metrics.stageCount, l.metrics.nodesPerStage[k]? =
    some ((List.range g.entityCount).countP (g.staging.stage · == k))
  sum_nodesPerStage : l.metrics.nodesPerStage.sum = g.entityCount
  pos_of_ne_first : ∀ k c, l.metrics.nodesPerStage[k + 1]? = some c → 0 < c

namespace Staging

/-- If stages are counted at all, the highest one is that of some position. -/
theorem exists_stage_of_count {st : Staging} {m : Nat} (h : st.count = m + 1) :
    ∃ i < st.stages.size, st.stage i = m := by
  unfold count at h
  rw [← Array.foldl_toList] at h
  rcases (isGreatest_foldl_max (· + 1) st.stages.toList 0).1 with hzero | ⟨k, hk, heq⟩
  · omega
  · obtain ⟨i, hi, rfl⟩ := List.mem_iff_getElem.mp hk
    rw [Array.length_toList] at hi
    refine ⟨i, hi, ?_⟩
    rw [stage, Array.getElem?_eq_getElem hi, Option.getD_some]
    rw [Array.getElem_toList] at heq
    omega

theorem count_eq_sup (st : Staging) :
    st.count = (Finset.range st.stages.size).sup fun i => st.stage i + 1 := by
  apply le_antisymm
  · cases h : st.count with
    | zero => exact Nat.zero_le _
    | succ m =>
        obtain ⟨i, hi, rfl⟩ := exists_stage_of_count h
        exact Finset.le_sup (f := fun i => st.stage i + 1) (Finset.mem_range.mpr hi)
  · exact Finset.sup_le fun i hi => stage_lt_count (Finset.mem_range.mp hi)

end Staging

namespace Graph

variable {g : Graph}

theorem WellFormed.gaplessStages (hg : g.WellFormed) : g.GaplessStages := by
  obtain ⟨_, cut, hsound, hdone⟩ := hg.staging_done
  have hstage := fun i hi => hsound.hasStage i hi (hdone i hi)
  exact {
    stage_le := fun i hi => hg.stage_le hi
    stage_eq_zero_iff := by
      intro i hi
      rw [(hstage i hi).stage_eq_zero_iff, List.eq_nil_iff_forall_not_mem]
      simp only [mem_calleesById]
    exists_callee := by
      intro i hi k hk heq
      obtain ⟨j, hj, _, hbelow⟩ :=
        (hstage i hi).exists_callee (k := k - 1) (by omega) (by omega)
      exact ⟨j, mem_calleesById.mp hj, hbelow⟩
    inhabited := fun i hi k hk hle =>
      hsound.exists_stage hg.calleesById_spec hk hi (hdone i hi) rfl hle }

/-- Every stage that is counted is inhabited, but perhaps the first. -/
theorem WellFormed.exists_stage_of_lt_count (hg : g.WellFormed) {k : Nat} (hpos : 1 ≤ k)
    (hk : k < g.staging.count) : ∃ i < g.entityCount, g.staging.stage i = k := by
  obtain ⟨m, hm⟩ : ∃ m, g.staging.count = m + 1 := Nat.exists_eq_succ_of_ne_zero (by omega)
  obtain ⟨i, hi, rfl⟩ := Staging.exists_stage_of_count hm
  rw [hg.size_stages] at hi
  exact hg.gaplessStages.inhabited i hi k hpos (by omega)

variable {α : Type} [Coordinate α]

theorem nodesPerStage_layout_getElem? (g : Graph) (s : LayoutSettings α) {k : Nat}
    (hk : k < (g.layout s).metrics.stageCount) : (g.layout s).metrics.nodesPerStage[k]? =
      some ((List.range g.entityCount).countP (g.staging.stage · == k)) := by
  rw [nodesPerStage_layout, List.getElem?_map, List.getElem?_range hk, Option.map_some,
    countP_positions]
  rfl

theorem WellFormed.stageCounts_layout (hg : g.WellFormed) (s : LayoutSettings α) :
    (g.layout s).StageCounts g where
  stageCount_eq := by
    rw [(g.counts_layout s).2.1, ← hg.size_stages]
    exact g.staging.count_eq_sup
  length_nodesPerStage := by
    rw [nodesPerStage_layout, List.length_map, List.length_range]
  nodesPerStage_getElem? := fun _ => g.nodesPerStage_layout_getElem? s
  sum_nodesPerStage := by
    rw [hg.sum_nodesPerStage, positions_layout, List.length_map, (g.sortedById_perm _).length_eq,
      List.length_range]
  pos_of_ne_first := by
    intro k c hc
    have hk : k + 1 < (g.layout s).metrics.stageCount := by
      have hlt := (List.getElem?_eq_some_iff.mp hc).1
      rwa [nodesPerStage_layout, List.length_map, List.length_range] at hlt
    rw [g.nodesPerStage_layout_getElem? s hk, Option.some_inj] at hc
    rw [(g.counts_layout s).2.1] at hk
    obtain ⟨i, hi, hstage⟩ := hg.exists_stage_of_lt_count (Nat.succ_pos k) hk
    rw [← hc, List.countP_pos_iff]
    exact ⟨i, List.mem_range.mpr hi, beq_iff_eq.mpr hstage⟩

/-- **Stages leave no gaps**, with or without cycles, and the layout of a graph counts its
entities stage by stage, at every stage but perhaps the first at least one. -/
theorem stages_gapless {g : Graph} (hg : g.WellFormed) :
    g.GaplessStages ∧
      ∀ (α : Type) [Coordinate α] (s : LayoutSettings α), (g.layout s).StageCounts g :=
  ⟨hg.gaplessStages, fun _ _ s => hg.stageCounts_layout s⟩

/-- In the ring everyone calls someone, so nobody is at stage zero; all four functions are
counted at the stages above. -/
theorem stages_gapless_ring : ring.WellFormed ∧ (∀ i < 4, ring.staging.stage i ≠ 0) ∧
    (ring.layout (LayoutSettings.standard (α := ℝ))).metrics.nodesPerStage.sum = 4 := by
  have hg : ring.WellFormed := wellFormed_ofInsertions _ _
  have hcount : ring.entityCount = 4 := by decide +kernel
  have hcalls : ∀ i < 4, ∃ j < 4, ring.linked i j = true := by decide +kernel
  obtain ⟨hstages, hlayouts⟩ := stages_gapless hg
  rw [← hcount] at hcalls ⊢
  refine ⟨hg, ?_, (hlayouts ℝ _).sum_nodesPerStage⟩
  intro i hi hzero
  obtain ⟨j, _, hcall⟩ := hcalls i hi
  exact (hstages.stage_eq_zero_iff i hi).mp hzero j hcall

end Graph
end CallAtlas
