import Mathlib
import CallAtlas.Proofs.Graph.Reachability
import CallAtlas.Proofs.Impact.Analyzer

/-!
# Answers about impact fit together

Ancestors are found by a search up the links, descendants by a search down. **Both are
said by paths**: what is reached are the ends of the paths within the limit, the start
apart. A path read from its end is a path the other way and has the same length, so the
two sets are dual, through cycles and under every limit (`WellFormed.reaches_opposite`).

A report puts these sets next to what the entities say of themselves: their degrees, for
the entry points, and their direct callers. That all of it agrees
(`ImpactReport.Consistent`) rests on the invariant of the graph.
-/

namespace CallAtlas

/-! ### Reading links backwards -/

/-- The other way along the links. -/
def Direction.opposite : Direction → Direction
  | .upstream => .downstream
  | .downstream => .upstream

@[simp] theorem Direction.opposite_opposite (d : Direction) : d.opposite.opposite = d := by
  cases d <;> rfl

namespace Graph

variable {g : Graph} {s : ImpactSettings} {d : Direction}

theorem step_opposite {i j : Nat} : g.Step d.opposite i j ↔ g.Step d j i := by
  cases d <;> rfl

/-- A path read from its end is a path the other way, of the same length. -/
theorem Path.opposite {start k i : Nat} (p : g.Path d start k i) :
    g.Path d.opposite i k start := by
  induction p with
  | nil => exact .nil
  | snoc _ hstep ih => exact .cons (step_opposite.mpr hstep) ih

theorem path_opposite {start k i : Nat} : g.Path d.opposite i k start ↔ g.Path d start k i := by
  constructor
  · intro p
    simpa using p.opposite
  · exact Path.opposite

/-- What is reached one way, under whatever limit, reaches back the other way. -/
theorem WellFormed.mem_reachable_opposite (hg : g.WellFormed) {limit : Option Nat} {i j : Nat} :
    i ∈ g.reachable d limit j ↔ j ∈ g.reachable d.opposite limit i := by
  simp only [hg.mem_reachable_iff, path_opposite, ne_comm]

theorem WellFormed.reachable_lt (hg : g.WellFormed) {limit : Option Nat} {i j : Nat}
    (h : j ∈ g.reachable d limit i) : j < g.entityCount := by
  obtain ⟨hne, k, p, _⟩ := hg.mem_reachable_iff.mp h
  -- What is reached is not the start, so the path to it ends with a step.
  cases p with
  | nil => exact absurd rfl hne
  | snoc _ hstep => exact (hg.step_lt hstep).2

/-! ### Sets by id -/

theorem mem_transitiveAt {i : Nat} {e : Entity} :
    e ∈ g.transitiveAt s d i ↔ ∃ j ∈ g.reachable d s.maxDepth i, g.node j = e := by
  simp only [transitiveAt, List.mem_map, mem_sortedById]

theorem transitive_of_some {id : String} {i : Nat} (h : g.indexOf? id = some i) :
    g.transitive s d id = .ok (g.transitiveAt s d i) := by
  unfold transitive
  rw [locate_of_some h]
  rfl

theorem transitive_of_not_contains {id : String} (h : ¬ g.contains id = true) :
    g.transitive s d id = .error (.entityNotFound id) := by
  unfold transitive
  rw [locate_of_not_contains h]
  rfl

theorem get_of_not_contains {id : String} (h : ¬ g.contains id = true) :
    g.get id = .error (.entityNotFound id) := by
  unfold get entity?
  rw [indexOf?_eq_none_of_not_contains h, Option.map_none]

/-- The set of an entity comes by strictly increasing id. -/
theorem WellFormed.pairwise_transitiveAt (hg : g.WellFormed) (i : Nat) :
    (g.transitiveAt s d i).Pairwise fun a b => a.id < b.id :=
  List.pairwise_map.mpr
    (hg.sortedById_pairwise_lt (hg.nodup_reachable d s.maxDepth i) fun _ => hg.reachable_lt)

/-- An entity is not in its own set. -/
theorem WellFormed.id_not_mem_transitiveAt (hg : g.WellFormed) {i : Nat}
    (hi : i < g.entityCount) : (g.node i).id ∉ (g.transitiveAt s d i).map (·.id) := by
  intro hmem
  obtain ⟨e, he, hid⟩ := List.mem_map.mp hmem
  obtain ⟨j, hj, rfl⟩ := mem_transitiveAt.mp he
  have heq : j = i := hg.node_id_inj (hg.reachable_lt hj) hi hid
  exact (hg.mem_reachable_iff.mp hj).1 heq

/-- The entity with the second id is in the set of the one with the first. -/
def Reaches (g : Graph) (s : ImpactSettings) (d : Direction) (x y : String) : Prop :=
  ∃ es, g.transitive s d x = .ok es ∧ ∃ e ∈ es, e.id = y

theorem WellFormed.reaches_iff (hg : g.WellFormed) {x y : String} :
    g.Reaches s d x y ↔ ∃ i j, g.indexOf? x = some i ∧ g.indexOf? y = some j ∧
      j ∈ g.reachable d s.maxDepth i := by
  constructor
  · rintro ⟨es, hes, e, he, rfl⟩
    by_cases hx : g.contains x = true
    · obtain ⟨i, hi⟩ := contains_iff.mp hx
      rw [transitive_of_some hi] at hes
      cases hes
      obtain ⟨j, hj, rfl⟩ := mem_transitiveAt.mp he
      exact ⟨i, j, hi, hg.indexOf?_node (hg.reachable_lt hj), hj⟩
    · rw [transitive_of_not_contains hx] at hes
      cases hes
  · rintro ⟨i, j, hi, hj, hmem⟩
    exact ⟨_, transitive_of_some hi, g.node j, mem_transitiveAt.mpr ⟨j, hmem, rfl⟩,
      (hg.indexOf?_eq_some.mp hj).2⟩

/-- **Ancestors and descendants are dual**, through cycles and under every limit. -/
theorem WellFormed.reaches_opposite (hg : g.WellFormed) {x y : String} :
    g.Reaches s d x y ↔ g.Reaches s d.opposite y x := by
  simp only [hg.reaches_iff]
  constructor
  · rintro ⟨i, j, hi, hj, hmem⟩
    exact ⟨j, i, hj, hi, hg.mem_reachable_opposite.mp hmem⟩
  · rintro ⟨j, i, hj, hi, hmem⟩
    exact ⟨i, j, hi, hj, hg.mem_reachable_opposite.mpr hmem⟩

end Graph

/-! ### Entry points -/

/-- The part of a rule that is about the name and the path of an entity: one of the
patterns, if the rule has any, is in one of the two, letter case aside. -/
def EntryPointRule.Matches : EntryPointRule → Entity → Prop
  | .noCallers, _ => True
  | .namedRoots patterns, e => ∃ p ∈ patterns,
      Text.contains (Text.lowercase e.name) (Text.lowercase p) = true ∨
        Text.contains (Text.lowercase e.filePath) (Text.lowercase p) = true

theorem EntryPointRule.accepts_iff {rule : EntryPointRule} {e : Entity} :
    rule.accepts e = true ↔ e.inDegree = 0 ∧ rule.Matches e := by
  cases rule with
  | noCallers => simp [accepts, Matches]
  | namedRoots patterns => simp [accepts, Matches]

namespace Graph

variable {g : Graph} {s : ImpactSettings} {d : Direction}

/-- An entity has no callers where its degree says so. -/
theorem WellFormed.callers_eq_nil_iff (hg : g.WellFormed) {i : Nat} (hi : i < g.entityCount) :
    g.callers (g.node i).id = .ok [] ↔ (g.node i).inDegree = 0 :=
  hg.adjacent_eq_nil_iff .upstream (mem_entities.mpr ⟨i, hi, rfl⟩)

/-- The entry points among the ancestors of a position. -/
theorem WellFormed.mem_entryPoints (hg : g.WellFormed) {i : Nat} {x : String} :
    x ∈ ((g.transitiveAt s d i).filter s.entryPoint.accepts).map (·.id) ↔
      x ∈ (g.transitiveAt s d i).map (·.id) ∧ g.callers x = .ok [] ∧
        ∃ e, g.entity? x = some e ∧ s.entryPoint.Matches e := by
  simp only [List.mem_map, List.mem_filter, EntryPointRule.accepts_iff]
  constructor
  · rintro ⟨e, ⟨he, hdegree, hmatches⟩, rfl⟩
    obtain ⟨j, hj, rfl⟩ := mem_transitiveAt.mp he
    have hlt := hg.reachable_lt hj
    exact ⟨⟨_, he, rfl⟩, (hg.callers_eq_nil_iff hlt).mpr hdegree, g.node j,
      hg.coherent.entity?_eq _ _ |>.mpr ⟨mem_entities.mpr ⟨j, hlt, rfl⟩, rfl⟩, hmatches⟩
  · rintro ⟨⟨e, he, rfl⟩, hcallers, e', he', hmatches⟩
    obtain ⟨j, hj, rfl⟩ := mem_transitiveAt.mp he
    have hlt := hg.reachable_lt hj
    have hsame : g.entity? (g.node j).id = some (g.node j) :=
      (hg.coherent.entity?_eq _ _).mpr ⟨mem_entities.mpr ⟨j, hlt, rfl⟩, rfl⟩
    rw [hsame] at he'
    cases he'
    exact ⟨_, ⟨he, (hg.callers_eq_nil_iff hlt).mp hcallers, hmatches⟩, rfl⟩

/-! ### Reports -/

/-- The report about the entity at a position. -/
def reportAt (g : Graph) (s : ImpactSettings) (i : Nat) : ImpactReport where
  entityId := (g.node i).id
  directCallers := ((g.sortedById (g.neighbours .upstream i)).map g.node).map (·.id)
  directCallees := ((g.sortedById (g.neighbours .downstream i)).map g.node).map (·.id)
  ancestors := (g.transitiveAt s .upstream i).map (·.id)
  descendants := (g.transitiveAt s .downstream i).map (·.id)
  entryPointAncestors :=
    ((g.transitiveAt s .upstream i).filter s.entryPoint.accepts).map (·.id)
  risk := g.riskAt s i
  complexity := .ofOutDegree (g.node i).outDegree

theorem impact_of_some {id : String} {i : Nat} (h : g.indexOf? id = some i) :
    g.impact s id = .ok (g.reportAt s i) := by
  unfold impact callers callees
  rw [locate_of_some h, adjacent_of_some h, adjacent_of_some h]
  rfl

end Graph

/-- What a report about the entity with an id promises. -/
structure ImpactReport.Consistent (g : Graph) (s : ImpactSettings) (id : String)
    (r : ImpactReport) : Prop where
  entityId : r.entityId = id
  ancestors : ∃ es, g.ancestors s id = .ok es ∧ r.ancestors = es.map (·.id)
  descendants : ∃ es, g.descendants s id = .ok es ∧ r.descendants = es.map (·.id)
  directCallers : ∃ es, g.callers id = .ok es ∧ r.directCallers = es.map (·.id)
  ancestors_sorted : r.ancestors.Pairwise (· < ·)
  descendants_sorted : r.descendants.Pairwise (· < ·)
  id_not_mem_ancestors : id ∉ r.ancestors
  id_not_mem_descendants : id ∉ r.descendants
  /-- Direct callers, the entity itself apart, are ancestors, unless no step may be
  taken. -/
  directCallers_subset : (∀ m, s.maxDepth = some m → 1 ≤ m) →
    ∀ x ∈ r.directCallers, x ≠ id → x ∈ r.ancestors
  /-- The entry points among the ancestors are those that nobody calls and that match
  the rule. -/
  mem_entryPointAncestors : ∀ x, x ∈ r.entryPointAncestors ↔
    x ∈ r.ancestors ∧ g.callers x = .ok [] ∧ ∃ e, g.entity? x = some e ∧ s.entryPoint.Matches e
  entryPointAncestors_sublist : r.entryPointAncestors.Sublist r.ancestors
  risk : g.risk s id = .ok r.risk
  size : r.risk.size = match s.basis with
    | .upstream => r.ancestors.length
    | .combined => r.ancestors.length + r.descendants.length
  baseLevel : r.risk.baseLevel = s.thresholds.classify r.risk.size
  escalated : r.risk.escalated = true ↔
    s.escalateOnEntryPoint = true ∧ r.entryPointAncestors ≠ [] ∧ r.risk.baseLevel ≠ .high

namespace Graph

variable {g : Graph} {s : ImpactSettings} {d : Direction}

theorem length_transitiveAt (i : Nat) :
    (g.transitiveAt s d i).length = (g.reachable d s.maxDepth i).length := by
  unfold transitiveAt
  rw [List.length_map, (g.sortedById_perm _).length_eq]

/-- A direct neighbour is reached, unless no step may be taken. -/
theorem WellFormed.mem_reachable_of_neighbour (hg : g.WellFormed) {limit : Option Nat}
    (hlimit : ∀ m, limit = some m → 1 ≤ m) {i j : Nat} (hj : j ∈ g.neighbours d i)
    (hne : j ≠ i) : j ∈ g.reachable d limit i :=
  hg.mem_reachable_iff.mpr ⟨hne, 1, .snoc .nil (mem_neighbours.mp hj), hlimit⟩

/-- An entry point is among the ancestors where the risk says so. -/
theorem any_accepts_iff (i : Nat) :
    (g.reachable d s.maxDepth i).any (fun a => s.entryPoint.accepts (g.node a)) = true ↔
      ((g.transitiveAt s d i).filter s.entryPoint.accepts).map (·.id) ≠ [] := by
  rw [List.any_eq_true, ne_eq, List.map_eq_nil_iff, List.filter_eq_nil_iff]
  simp [mem_transitiveAt]

theorem WellFormed.consistent_reportAt (hg : g.WellFormed) {id : String} {i : Nat}
    (h : g.indexOf? id = some i) : (g.reportAt s i).Consistent g s id := by
  obtain ⟨hi, rfl⟩ := hg.indexOf?_eq_some.mp h
  exact {
    entityId := rfl
    ancestors := ⟨_, transitive_of_some h, rfl⟩
    descendants := ⟨_, transitive_of_some h, rfl⟩
    directCallers := ⟨_, adjacent_of_some h, rfl⟩
    ancestors_sorted := List.pairwise_map.mpr (hg.pairwise_transitiveAt i)
    descendants_sorted := List.pairwise_map.mpr (hg.pairwise_transitiveAt i)
    id_not_mem_ancestors := hg.id_not_mem_transitiveAt hi
    id_not_mem_descendants := hg.id_not_mem_transitiveAt hi
    directCallers_subset := by
      intro hlimit x hx hne
      obtain ⟨_, hmem, rfl⟩ := List.mem_map.mp hx
      obtain ⟨j, hj, rfl⟩ := List.mem_map.mp hmem
      have hreached := hg.mem_reachable_of_neighbour hlimit (mem_sortedById.mp hj)
        fun heq => hne (heq ▸ rfl)
      exact List.mem_map_of_mem (mem_transitiveAt.mpr ⟨j, hreached, rfl⟩)
    mem_entryPointAncestors := fun x => hg.mem_entryPoints
    entryPointAncestors_sublist := List.filter_sublist.map _
    risk := by
      unfold Graph.risk
      rw [locate_of_some h]
      rfl
    size := by
      cases hbasis : s.basis <;>
        simp only [reportAt, riskAt, ImpactSettings.assess, hbasis, List.length_map,
          length_transitiveAt]
    baseLevel := rfl
    escalated := by
      simp only [reportAt, riskAt, ImpactSettings.assess, Bool.and_eq_true, bne_iff_ne, and_assoc,
        any_accepts_iff] }

/-- **Answers about the impact of a change fit together**, for every graph and all
settings:

* an analyzer gives every question of a sequence the answer that one gives that has not
  been asked before, whatever cache the two have and whatever that drops, and this is the
  answer without a cache;
* one entity is an ancestor of another exactly where the other is its descendant;
* there is a report for every known id, and it is consistent;
* an unknown id is refused by every question about an entity. -/
theorem impact_consistent {g : Graph} (hg : g.WellFormed) (s : ImpactSettings) :
    (∀ (C : ReachCache) (holds : C.State → Nat × Direction → List Nat → Prop), C.Lawful holds →
      (∀ q, ((Analyzer.new C g s).ask q).1 = g.answer s q) ∧
      ∀ qs, (Analyzer.new C g s).askAll qs = qs.map fun q => ((Analyzer.new C g s).ask q).1) ∧
    (∀ x e, (∃ es, g.ancestors s x = .ok es ∧ ∃ a ∈ es, a.id = e) ↔
      ∃ es, g.descendants s e = .ok es ∧ ∃ a ∈ es, a.id = x) ∧
    (∀ id, g.contains id = true → ∃ r, g.impact s id = .ok r ∧ r.Consistent g s id) ∧
    ∀ id, g.contains id = false →
      g.ancestors s id = .error (.entityNotFound id) ∧
      g.descendants s id = .error (.entityNotFound id) ∧
      g.risk s id = .error (.entityNotFound id) ∧
      g.complexity id = .error (.entityNotFound id) ∧
      g.impact s id = .error (.entityNotFound id) := by
  refine ⟨?_, fun x e => hg.reaches_opposite, ?_, ?_⟩
  · intro C holds hC
    refine ⟨Analyzer.ask_new hC g s, fun qs => ?_⟩
    rw [Analyzer.askAll_new hC, funext (Analyzer.ask_new hC g s)]
  · intro id hid
    obtain ⟨i, hi⟩ := contains_iff.mp hid
    exact ⟨g.reportAt s i, impact_of_some hi, hg.consistent_reportAt hi⟩
  · intro id hid
    have hunknown : ¬ g.contains id = true := by simp [hid]
    have hlocate := locate_of_not_contains hunknown
    refine ⟨transitive_of_not_contains hunknown, transitive_of_not_contains hunknown, ?_, ?_, ?_⟩
    · unfold risk
      rw [hlocate]
      rfl
    · unfold complexity
      rw [get_of_not_contains hunknown]
      rfl
    · unfold impact
      rw [hlocate]
      rfl

/-- A function that calls itself, and one that nobody calls and that calls it. -/
def entered : Graph :=
  let entity (name : String) : Entity := .make name "m.js" "." .declaration 1 1 []
  ofInsertions (["main", "f"].map entity)
    [⟨"m.js:main:1", "m.js:f:1", 1⟩, ⟨"m.js:f:1", "m.js:f:1", 2⟩]

/-- A cache that has dropped everything when it is used for the second time. -/
def forgetful : ReachCache := .recent _ _ fun uses _ => uses == 1

/-- One step may be taken, and there is no room for any set. -/
def oneStep : ImpactSettings := { maxDepth := some 1, cacheCapacity := 0 }

theorem impact_consistent_entered :
    entered.WellFormed ∧
      (Analyzer.new forgetful entered oneStep).askAll [.ancestors "m.js:f:1", .risk "m.js:f:1"] =
        [entered.answer oneStep (.ancestors "m.js:f:1"),
          entered.answer oneStep (.risk "m.js:f:1")] ∧
      ∃ r, entered.impact oneStep "m.js:f:1" = .ok r ∧ r.risk.escalated = true ∧
        r.entryPointAncestors = ["m.js:main:1"] := by
  have hg : entered.WellFormed := wellFormed_ofInsertions _ _
  obtain ⟨hcache, _, hreport, _⟩ := impact_consistent hg oneStep
  obtain ⟨hfresh, hall⟩ := hcache forgetful _ (Cache.recent_lawful _)
  obtain ⟨r, hr, hconsistent⟩ := hreport "m.js:f:1" (by decide +kernel)
  have hat : entered.impact oneStep "m.js:f:1" = .ok (entered.reportAt oneStep 1) :=
    impact_of_some (by decide +kernel)
  rw [hat] at hr
  cases hr
  have hentry : (entered.reportAt oneStep 1).entryPointAncestors = ["m.js:main:1"] := by
    decide +kernel
  refine ⟨hg, ?_, _, hat, hconsistent.escalated.mpr ⟨rfl, ?_, by decide +kernel⟩, hentry⟩
  · rw [hall]
    simp [hfresh]
  · rw [hentry]
    exact List.cons_ne_nil _ _

end Graph

end CallAtlas
