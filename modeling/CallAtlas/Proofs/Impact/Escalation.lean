import CallAtlas.Proofs.Impact.Report
import CallAtlas.Proofs.Layout.Staging

/-!
# Everything that is called can be entered

A risk is raised where an entry point is among the ancestors. In a graph without cycles and
with the rule that an entry point is what nobody calls, **an entry point is above everything
that has a caller**: the ancestors of a position are finitely many and calls order them, so one
of them has no caller among them, and hence no caller at all (`exists_uncalled_above`).

So the risk of every called entity is one level above what its size says, and only what
nobody calls can have the lowest level.
-/

namespace CallAtlas

/-! ### Raising a level -/

theorem RiskLevel.escalate_ne_low (level : RiskLevel) : level.escalate ≠ .low := by
  cases level <;> exact RiskLevel.noConfusion

namespace ImpactSettings

variable {s : ImpactSettings} (ancestors descendants : Nat)

/-- The highest level is not raised, which makes no difference. -/
theorem level_assess_of_entered (h : s.escalateOnEntryPoint = true) :
    (s.assess ancestors descendants true).level =
      (s.assess ancestors descendants true).baseLevel.escalate := by
  unfold assess
  rw [h]
  dsimp only
  generalize s.thresholds.classify _ = level
  cases level <;> rfl

theorem level_assess_of_not_entered :
    (s.assess ancestors descendants false).level =
      (s.assess ancestors descendants false).baseLevel := by
  simp [assess]

end ImpactSettings

namespace Graph

variable {g : Graph} {s : ImpactSettings} {d : Direction}

/-! ### Graphs without cycles -/

/-- No call was cut off exactly when there is no cycle. -/
theorem WellFormed.cycleEdges_eq_zero_iff (hg : g.WellFormed) :
    g.staging.cycleEdges = 0 ↔ Acyclic (g.Step .downstream) := by
  obtain ⟨_, cut, hsound, hstage⟩ := hg.staging_walk
  rw [← hsound.cut_card, Finset.card_eq_zero]
  constructor
  · rintro rfl i hi
    exact acyclic_outside hstage hg i
      (Relation.TransGen.mono (fun _ _ hstep => ⟨hstep, Finset.notMem_empty _⟩) i i hi)
  · intro hacyclic
    rw [Finset.eq_empty_iff_forall_notMem]
    intro e he
    obtain ⟨hmem, hback⟩ := hsound.cut_cycle e he
    -- A call that was cut off leads back to where it started.
    have hsteps : Relation.ReflTransGen (g.Step .downstream) e.2 e.1 :=
      Relation.ReflTransGen.mono (fun _ _ => mem_calleesById.mp) _ _ hback
    exact hacyclic e.1 (.head' (mem_calleesById.mp hmem) hsteps)

theorem exists_path_of_transGen {i j : Nat} (h : Relation.TransGen (g.Step d) i j) :
    ∃ k, g.Path d i k j := by
  induction h with
  | single hstep => exact ⟨1, .snoc .nil hstep⟩
  | tail _ hstep ih =>
      obtain ⟨k, p⟩ := ih
      exact ⟨k + 1, p.snoc hstep⟩

theorem WellFormed.transGen_lt (hg : g.WellFormed) {i j : Nat}
    (h : Relation.TransGen (g.Step d) i j) : i < g.entityCount := by
  obtain ⟨_, hstep, _⟩ := Relation.TransGen.head'_iff.mp h
  exact (hg.step_lt hstep).1

/-- Above every position that is called there is one that is not. -/
theorem WellFormed.exists_uncalled_above (hg : g.WellFormed)
    (hacyclic : Acyclic (g.Step .downstream)) {i caller : Nat}
    (hcaller : g.Step .downstream caller i) :
    ∃ r, Relation.TransGen (g.Step .downstream) r i ∧ ∀ p, ¬ g.Step .downstream p r := by
  let Above : Nat → Nat → Prop := Relation.TransGen (g.Step .downstream)
  have hfinite : {p | Above p i}.Finite :=
    (Set.finite_lt_nat g.entityCount).subset fun _ => hg.transGen_lt
  have : Std.Irrefl Above := ⟨hacyclic⟩
  have : IsStrictOrder Nat Above := {}
  have horder : {p | Above p i}.WellFoundedOn Above := hfinite.wellFoundedOn
  -- The first one in the order of calls: a caller of it would be above the position as well.
  obtain ⟨⟨r, hr⟩, _, hfirst⟩ := horder.has_min Set.univ ⟨⟨caller, .single hcaller⟩, trivial⟩
  refine ⟨r, hr, fun p hp => ?_⟩
  exact hfirst ⟨p, .head hp hr⟩ trivial (.single hp)

/-! ### Entry points above an entity -/

/-- A position is called exactly when its degree says so. -/
theorem WellFormed.inDegree_eq_zero_iff (hg : g.WellFormed) {i : Nat} (hi : i < g.entityCount) :
    (g.node i).inDegree = 0 ↔ ∀ p, ¬ g.Step .downstream p i := by
  rw [← hg.callers_eq_nil_iff hi]
  unfold callers
  rw [adjacent_of_some (hg.indexOf?_node hi), Except.ok.injEq, List.map_eq_nil_iff,
    List.eq_nil_iff_forall_not_mem]
  refine forall_congr' fun p => not_congr ?_
  exact mem_sortedById.trans (mem_neighbours.trans (step_opposite (d := .downstream)))

/-- An entry point is among the ancestors of a position exactly where something calls it. -/
theorem WellFormed.any_accepts_noCallers_iff (hg : g.WellFormed)
    (hacyclic : Acyclic (g.Step .downstream)) (hdepth : s.maxDepth = none)
    (hrule : s.entryPoint = .noCallers) {i : Nat} :
    (g.reachable .upstream s.maxDepth i).any (fun a => s.entryPoint.accepts (g.node a)) = true ↔
      ∃ p, g.Step .downstream p i := by
  rw [List.any_eq_true]
  constructor
  · rintro ⟨r, hr, _⟩
    obtain ⟨hne, k, p, _⟩ := hg.mem_reachable_iff.mp hr
    -- The way down from the ancestor ends with a call.
    cases (path_opposite (d := .downstream)).mp p with
    | nil => exact absurd rfl hne
    | snoc _ hstep => exact ⟨_, hstep⟩
  · rintro ⟨caller, hcaller⟩
    obtain ⟨r, hr, hroot⟩ := hg.exists_uncalled_above hacyclic hcaller
    obtain ⟨k, p⟩ := exists_path_of_transGen hr
    have hne : r ≠ i := by
      rintro rfl
      exact hacyclic r hr
    refine ⟨r, hg.mem_reachable_iff.mpr ⟨hne, k, p.opposite, ?_⟩, ?_⟩
    · rw [hdepth]
      exact fun _ h => nomatch h
    rw [hrule, EntryPointRule.accepts_iff]
    exact ⟨(hg.inDegree_eq_zero_iff (hg.transGen_lt hr)).mpr hroot, trivial⟩

/-! ### The risk of everything that is called -/

/-- The risk of an entity in an acyclic graph is known from its size and from whether anybody
calls it. -/
structure EscalatedIfCalled (g : Graph) (s : ImpactSettings) (id : String) (r : ImpactReport) :
    Prop where
  entered_iff : r.entryPointAncestors ≠ [] ↔ ∃ callers, g.callers id = .ok callers ∧ callers ≠ []
  called : g.callers id ≠ .ok [] → r.risk.level = r.risk.baseLevel.escalate
  root : g.callers id = .ok [] → r.risk.level = r.risk.baseLevel
  low : r.risk.level = .low → g.callers id = .ok []
  /-- What the level is raised from is what the size says. -/
  baseLevel : r.risk.baseLevel = s.thresholds.classify r.risk.size

theorem WellFormed.escalatedIfCalled_reportAt (hg : g.WellFormed)
    (hacyclic : Acyclic (g.Step .downstream)) (hdepth : s.maxDepth = none)
    (hrule : s.entryPoint = .noCallers) (hescalate : s.escalateOnEntryPoint = true) {id : String}
    {i : Nat} (h : g.indexOf? id = some i) : g.EscalatedIfCalled s id (g.reportAt s i) := by
  obtain ⟨hi, rfl⟩ := hg.indexOf?_eq_some.mp h
  have hentered := hg.any_accepts_noCallers_iff hacyclic hdepth hrule (i := i)
  have hroot : g.callers (g.node i).id = .ok [] ↔ ∀ p, ¬ g.Step .downstream p i :=
    (hg.callers_eq_nil_iff hi).trans (hg.inDegree_eq_zero_iff hi)
  have hcalled : g.callers (g.node i).id ≠ .ok [] →
      (g.reportAt s i).risk.level = (g.reportAt s i).risk.baseLevel.escalate := by
    intro hne
    rw [ne_eq, hroot, not_forall_not, ← hentered] at hne
    dsimp only [reportAt, riskAt]
    rw [hne]
    exact ImpactSettings.level_assess_of_entered _ _ hescalate
  exact {
    entered_iff := by
      obtain ⟨callers, hcallers, _⟩ := hg.adjacent_spec .upstream (mem_entities.mpr ⟨i, hi, rfl⟩)
      change g.callers _ = _ at hcallers
      refine (any_accepts_iff i).symm.trans (hentered.trans ?_)
      rw [← not_forall_not, ← hroot, hcallers]
      simp
    called := hcalled
    root := by
      intro hnone
      rw [hroot, ← not_exists, ← hentered, Bool.not_eq_true] at hnone
      dsimp only [reportAt, riskAt]
      rw [hnone]
      exact ImpactSettings.level_assess_of_not_entered _ _
    low := by
      intro hlow
      by_contra hne
      rw [hcalled hne] at hlow
      exact RiskLevel.escalate_ne_low _ hlow
    baseLevel := rfl }

/-- **In an acyclic graph everything that is called can be entered**, for all settings under
which entry points are what nobody calls, all ancestors count and an entry point among them
raises the risk:

* the graph is acyclic exactly where staging cut no call off;
* there is a report for every known id, which lists an entry point exactly where the entity
  has a caller;
* so the risk of what is called is one level above what its size says, the risk of what
  nobody calls is not, and only the latter can be low (`EscalatedIfCalled`). -/
theorem escalated_iff_called {g : Graph} (hg : g.WellFormed) {s : ImpactSettings}
    (hdepth : s.maxDepth = none) (hrule : s.entryPoint = .noCallers)
    (hescalate : s.escalateOnEntryPoint = true) :
    (g.staging.cycleEdges = 0 ↔ Acyclic (g.Step .downstream)) ∧
    (Acyclic (g.Step .downstream) → ∀ id, g.contains id = true →
      ∃ r, g.impact s id = .ok r ∧ g.EscalatedIfCalled s id r) := by
  refine ⟨hg.cycleEdges_eq_zero_iff, fun hacyclic id hid => ?_⟩
  obtain ⟨i, hi⟩ := contains_iff.mp hid
  exact ⟨g.reportAt s i, impact_of_some hi,
    hg.escalatedIfCalled_reportAt hacyclic hdepth hrule hescalate hi⟩

/-- Two functions that both call a third one, one of them through the other. -/
def shortcut : Graph :=
  let entity (name : String) : Entity := .make name "m.js" "." .declaration 1 1 []
  ofInsertions (["main", "f", "g"].map entity)
    [⟨"m.js:main:1", "m.js:f:1", 1⟩, ⟨"m.js:f:1", "m.js:g:1", 2⟩, ⟨"m.js:main:1", "m.js:g:1", 3⟩]

theorem acyclic_shortcut : Acyclic (shortcut.Step .downstream) := by
  have hg : shortcut.WellFormed := wellFormed_ofInsertions _ _
  have hlinked : ∀ i < shortcut.entityCount, ∀ j < shortcut.entityCount,
      shortcut.linked i j = true → i < j := by
    decide +kernel
  have hlt : ∀ i j, shortcut.Step .downstream i j → i < j := by
    intro i j hstep
    obtain ⟨hi, hj⟩ := hg.step_lt hstep
    exact hlinked i hi j hj hstep
  intro i hi
  exact Nat.lt_irrefl i (Relation.transGen_minimal hlt _ _ hi)

theorem escalated_iff_called_shortcut :
    shortcut.WellFormed ∧ Acyclic (shortcut.Step .downstream) ∧
      (∃ r, shortcut.impact {} "m.js:g:1" = .ok r ∧ r.risk.level = .medium) ∧
      ∃ r, shortcut.impact {} "m.js:main:1" = .ok r ∧ r.entryPointAncestors = [] := by
  have hg : shortcut.WellFormed := wellFormed_ofInsertions _ _
  obtain ⟨_, hreports⟩ := escalated_iff_called hg (s := {}) rfl rfl rfl
  have hgCalled : shortcut.impact {} "m.js:g:1" = .ok (shortcut.reportAt {} 2) :=
    impact_of_some (by decide +kernel)
  have hmain : shortcut.impact {} "m.js:main:1" = .ok (shortcut.reportAt {} 0) :=
    impact_of_some (by decide +kernel)
  refine ⟨hg, acyclic_shortcut, ⟨_, hgCalled, ?_⟩, _, hmain, ?_⟩
  · obtain ⟨r, hr, hescalated⟩ := hreports acyclic_shortcut "m.js:g:1" (by decide +kernel)
    cases hgCalled.symm.trans hr
    have hid : (shortcut.node 2).id = "m.js:g:1" := by decide +kernel
    have hcalled : shortcut.callers "m.js:g:1" ≠ .ok [] := by
      rw [← hid, ne_eq, hg.callers_eq_nil_iff (by decide +kernel)]
      decide +kernel
    exact (hescalated.called hcalled).trans (by decide +kernel)
  · obtain ⟨r, hr, hescalated⟩ := hreports acyclic_shortcut "m.js:main:1" (by decide +kernel)
    cases hmain.symm.trans hr
    have hid : (shortcut.node 0).id = "m.js:main:1" := by decide +kernel
    have hroot : shortcut.callers "m.js:main:1" = .ok [] := by
      rw [← hid, hg.callers_eq_nil_iff (by decide +kernel)]
      decide +kernel
    by_contra hne
    obtain ⟨callers, hcallers, hsome⟩ := hescalated.entered_iff.mp hne
    rw [hroot, Except.ok.injEq] at hcallers
    exact hsome hcallers.symm

end Graph

end CallAtlas
