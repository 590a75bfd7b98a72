import Mathlib
import CallAtlas.Proofs.Graph.Invariant

/-!
# The views of a graph agree

A graph is asked about an edge in four ways: by its callees, by its callers,
through `hasEdge` and in the list of all edges. In a well-formed graph the four
answers come down to one fact, a link between the positions of the two ids, and
the degrees stored in the entities are the lengths of the answers.

Entities are found through the indexes of the graph, which are in step with them
(`indexes_inStep`). Ids are distinct, so positions and ids can be exchanged for each other
(`WellFormed.indexOf?_eq_some`). `StepById` is the one fact behind the four views,
and `Coherent` collects what the questions about a graph answer together.
-/

namespace CallAtlas.Graph

/-! ### Looking up ids and names -/

/-- **The indexes are in step with the entities**, however the graph was made. An id is
found exactly if an entity has it, and where ids are distinct it is found at the position
of that entity; a name is found at the positions of the entities that have it, in order. -/
theorem indexes_inStep (g : Graph) :
    (∀ id, (g.byId.find? id).isSome = true ↔ id ∈ g.entities.toList.map Entity.id) ∧
    (DistinctIds g.entities → ∀ id i,
      g.byId.find? id = some i ↔ ∃ e, g.entities[i]? = some e ∧ e.id = id) ∧
    ∀ name, g.byName.positions name =
      (List.range g.entityCount).filter fun i => (g.node i).name == name := by
  rw [g.byId_eq, g.byName_eq]
  refine ⟨fun _ => IdIndex.isSome_find?_ofIds, fun hg _ _ => hg.find?_ofIds, fun name => ?_⟩
  rw [NameIndex.positions_ofEntities]
  refine List.filter_congr fun i hi => ?_
  rw [getElem?_entities (List.mem_range.mp hi), Option.any_some]

theorem WellFormed.indexOf?_eq_some {g : Graph} (hg : g.WellFormed) {id : String} {i : Nat} :
    g.indexOf? id = some i ↔ i < g.entityCount ∧ (g.node i).id = id := by
  unfold indexOf?
  rw [g.indexes_inStep.2.1 hg.distinctIds]
  constructor
  · intro h
    obtain ⟨e, he, rfl⟩ := h
    obtain ⟨hi, rfl⟩ := node_of_getElem? he
    exact ⟨hi, rfl⟩
  · intro h
    obtain ⟨hi, hid⟩ := h
    exact ⟨g.node i, getElem?_entities hi, hid⟩

theorem WellFormed.indexOf?_node {g : Graph} (hg : g.WellFormed) {i : Nat}
    (hi : i < g.entityCount) : g.indexOf? (g.node i).id = some i :=
  hg.indexOf?_eq_some.mpr ⟨hi, rfl⟩

/-- Entities at different positions have different ids. -/
theorem WellFormed.node_id_inj {g : Graph} (hg : g.WellFormed) {i j : Nat}
    (hi : i < g.entityCount) (hj : j < g.entityCount) (h : (g.node i).id = (g.node j).id) :
    i = j := by
  have hi' := hg.indexOf?_node hi
  rw [h, hg.indexOf?_node hj] at hi'
  exact (Option.some.inj hi').symm

/-- Where ids are distinct, an entity is found under its own id and no other. -/
theorem WellFormed.entity?_eq_some {g : Graph} (hg : g.WellFormed) {id : String} {e : Entity} :
    g.entity? id = some e ↔ e ∈ g.entities ∧ e.id = id := by
  unfold entity?
  rw [Option.map_eq_some_iff, mem_entities]
  constructor
  · intro h
    obtain ⟨i, hi, rfl⟩ := h
    obtain ⟨hlt, hid⟩ := hg.indexOf?_eq_some.mp hi
    exact ⟨⟨i, hlt, rfl⟩, hid⟩
  · intro h
    obtain ⟨⟨i, hlt, rfl⟩, hid⟩ := h
    exact ⟨i, hg.indexOf?_eq_some.mpr ⟨hlt, hid⟩, rfl⟩

/-- The entities found for a name are those that have it, in order. -/
theorem named_eq_filter (g : Graph) (name : String) :
    g.named name = g.entities.toList.filter (·.name == name) := by
  unfold named
  rw [g.indexes_inStep.2.2, toList_entities, List.filter_map]
  rfl

theorem contains_iff_mem {g : Graph} {id : String} :
    g.contains id = true ↔ id ∈ g.entities.toList.map Entity.id :=
  g.indexes_inStep.1 id

theorem contains_iff {g : Graph} {id : String} :
    g.contains id = true ↔ ∃ i, g.indexOf? id = some i := by
  unfold contains
  exact Option.isSome_iff_exists

theorem indexOf?_eq_none_of_not_contains {g : Graph} {id : String} (h : ¬ g.contains id = true) :
    g.indexOf? id = none := by
  cases hi : g.indexOf? id with
  | none => rfl
  | some i => exact absurd (contains_iff.mpr ⟨i, hi⟩) h

theorem locate_of_some {g : Graph} {id : String} {i : Nat} (h : g.indexOf? id = some i) :
    g.locate id = .ok i := by
  unfold locate
  rw [h]

theorem locate_of_not_contains {g : Graph} {id : String} (h : ¬ g.contains id = true) :
    g.locate id = .error (.entityNotFound id) := by
  unfold locate
  rw [indexOf?_eq_none_of_not_contains h]

/-! ### Neighbours by id -/

theorem sortedById_perm (g : Graph) (is : List Nat) : (g.sortedById is).Perm is :=
  List.mergeSort_perm is _

theorem mem_sortedById {g : Graph} {is : List Nat} {i : Nat} : i ∈ g.sortedById is ↔ i ∈ is :=
  (g.sortedById_perm is).mem_iff

theorem sortedById_pairwise (g : Graph) (is : List Nat) :
    (g.sortedById is).Pairwise fun i j => (g.node i).id ≤ (g.node j).id := by
  have hle : ∀ a b : String, (compare a b).isLE = true ↔ a ≤ b :=
    fun a b => Std.LawfulBCmp.isLE_iff_le
  have hsorted : (g.sortedById is).Pairwise
      fun i j => (compare (g.node i).id (g.node j).id).isLE = true := by
    apply List.pairwise_mergeSort
    · intro i j k hij hjk
      rw [hle] at hij hjk ⊢
      exact le_trans hij hjk
    · intro i j
      rw [Bool.or_eq_true, hle, hle]
      exact le_total _ _
  exact hsorted.imp fun h => (hle _ _).mp h

/-- Distinct positions sorted by id have strictly increasing ids. -/
theorem WellFormed.sortedById_pairwise_lt {g : Graph} (hg : g.WellFormed) {is : List Nat}
    (hnd : is.Nodup) (hlt : ∀ i ∈ is, i < g.entityCount) :
    (g.sortedById is).Pairwise fun i j => (g.node i).id < (g.node j).id := by
  have hnd' : (g.sortedById is).Nodup := (g.sortedById_perm is).nodup_iff.mpr hnd
  refine ((sortedById_pairwise g is).and hnd').imp_of_mem ?_
  rintro i j hi hj ⟨hle, hne⟩
  refine lt_of_le_of_ne hle fun hid => hne ?_
  exact hg.node_id_inj (hlt i (mem_sortedById.mp hi)) (hlt j (mem_sortedById.mp hj)) hid

theorem adjacent_of_some {g : Graph} {d : Direction} {id : String} {i : Nat}
    (h : g.indexOf? id = some i) :
    g.adjacent d id = .ok ((g.sortedById (g.neighbours d i)).map g.node) := by
  unfold adjacent
  rw [locate_of_some h]
  rfl

theorem adjacent_of_not_contains {g : Graph} {d : Direction} {id : String}
    (h : ¬ g.contains id = true) : g.adjacent d id = .error (.entityNotFound id) := by
  unfold adjacent
  rw [locate_of_not_contains h]
  rfl

/-- **The direct neighbours of an entity** are as many as its degree says, are
entities of the graph, and come in strictly increasing order of their ids, so none
comes twice. -/
theorem WellFormed.adjacent_spec {g : Graph} (hg : g.WellFormed) (d : Direction) {e : Entity}
    (he : e ∈ g.entities) :
    ∃ es, g.adjacent d e.id = .ok es ∧ e.degree d = es.length ∧ (∀ c ∈ es, c ∈ g.entities) ∧
      es.Nodup ∧ es.Pairwise fun a b => a.id < b.id := by
  obtain ⟨i, hi, rfl⟩ := mem_entities.mp he
  have hlt : ∀ j ∈ g.neighbours d i, j < g.entityCount :=
    fun j hj => (hg.step_lt (mem_neighbours.mp hj)).2
  have hsorted : ((g.sortedById (g.neighbours d i)).map g.node).Pairwise fun a b => a.id < b.id :=
    List.pairwise_map.mpr (hg.sortedById_pairwise_lt (hg.nodup_neighbours d i) hlt)
  refine ⟨_, adjacent_of_some (hg.indexOf?_node hi), ?_, ?_, hsorted.imp ?_, hsorted⟩
  · rw [List.length_map, (g.sortedById_perm _).length_eq]
    exact hg.degree_eq d i hi
  · intro c hc
    obtain ⟨j, hj, rfl⟩ := List.mem_map.mp hc
    exact mem_entities.mpr ⟨j, hlt j (mem_sortedById.mp hj), rfl⟩
  · rintro a b hid rfl
    exact lt_irrefl _ hid

/-- A degree is the number of neighbours that a query lists. -/
theorem WellFormed.map_length_adjacent {g : Graph} (hg : g.WellFormed) (d : Direction) {e : Entity}
    (he : e ∈ g.entities) : (g.adjacent d e.id).map List.length = .ok (e.degree d) := by
  obtain ⟨es, hes, hlength, _⟩ := hg.adjacent_spec d he
  rw [hes, hlength]
  rfl

theorem WellFormed.adjacent_eq_nil_iff {g : Graph} (hg : g.WellFormed) (d : Direction) {e : Entity}
    (he : e ∈ g.entities) : g.adjacent d e.id = .ok [] ↔ e.degree d = 0 := by
  obtain ⟨es, hes, hlength, _⟩ := hg.adjacent_spec d he
  rw [hes, hlength, List.length_eq_zero_iff, Except.ok.injEq]

/-! ### One fact behind the four views -/

/-- The entities with these two ids are one step apart. -/
def StepById (g : Graph) (d : Direction) (s t : String) : Prop :=
  ∃ i j, g.indexOf? s = some i ∧ g.indexOf? t = some j ∧ g.Step d i j

theorem stepById_upstream {g : Graph} {s t : String} :
    g.StepById .upstream t s ↔ g.StepById .downstream s t := by
  constructor
  · intro h
    obtain ⟨i, j, hi, hj, h⟩ := h
    exact ⟨j, i, hj, hi, h⟩
  · intro h
    obtain ⟨i, j, hi, hj, h⟩ := h
    exact ⟨j, i, hj, hi, h⟩

theorem hasEdge_iff {g : Graph} {s t : String} :
    g.hasEdge s t = true ↔ g.StepById .downstream s t := by
  unfold hasEdge StepById
  cases hs : g.indexOf? s with
  | none => simp
  | some i =>
      cases ht : g.indexOf? t with
      | none => simp
      | some j => simp [Step]

theorem WellFormed.mem_adjacent_iff {g : Graph} (hg : g.WellFormed) {d : Direction}
    {s t : String} :
    (∃ es, g.adjacent d s = .ok es ∧ ∃ e ∈ es, e.id = t) ↔ g.StepById d s t := by
  constructor
  · intro h
    obtain ⟨es, hes, e, he, rfl⟩ := h
    by_cases hs : g.contains s = true
    · obtain ⟨i, hi⟩ := contains_iff.mp hs
      rw [adjacent_of_some hi] at hes
      cases hes
      obtain ⟨j, hj, rfl⟩ := List.mem_map.mp he
      have hstep := mem_neighbours.mp (mem_sortedById.mp hj)
      exact ⟨i, j, hi, hg.indexOf?_node (hg.step_lt hstep).2, hstep⟩
    · rw [adjacent_of_not_contains hs] at hes
      cases hes
  · intro h
    obtain ⟨i, j, hi, hj, hstep⟩ := h
    refine ⟨_, adjacent_of_some hi, g.node j, ?_, (hg.indexOf?_eq_some.mp hj).2⟩
    exact List.mem_map_of_mem (mem_sortedById.mpr (mem_neighbours.mpr hstep))

theorem edges_perm (g : Graph) : g.edges.Perm (g.links.toList.map g.edgeOf) :=
  List.mergeSort_perm _ _

theorem mem_edges {g : Graph} {e : Edge} : e ∈ g.edges ↔ ∃ l ∈ g.links, g.edgeOf l = e := by
  rw [g.edges_perm.mem_iff, List.mem_map]
  simp only [Array.mem_toList_iff]

/-- The edge of a pair of ids is that of the link between their positions. -/
theorem WellFormed.mem_edges_iff {g : Graph} (hg : g.WellFormed) {s t : String} {line : Nat} :
    ⟨s, t, line⟩ ∈ g.edges ↔
      ∃ i j, g.indexOf? s = some i ∧ g.indexOf? t = some j ∧ ⟨i, j, line⟩ ∈ g.links := by
  rw [mem_edges]
  constructor
  · intro h
    obtain ⟨l, hl, heq⟩ := h
    cases heq
    exact ⟨l.source, l.target, hg.indexOf?_node (hg.inBounds l hl .downstream),
      hg.indexOf?_node (hg.inBounds l hl .upstream), hl⟩
  · intro h
    obtain ⟨i, j, hi, hj, hl⟩ := h
    refine ⟨_, hl, ?_⟩
    unfold edgeOf
    rw [(hg.indexOf?_eq_some.mp hi).2, (hg.indexOf?_eq_some.mp hj).2]

theorem WellFormed.exists_mem_edges_iff {g : Graph} (hg : g.WellFormed) {s t : String} :
    (∃ line, ⟨s, t, line⟩ ∈ g.edges) ↔ g.StepById .downstream s t := by
  constructor
  · intro h
    obtain ⟨line, h⟩ := h
    obtain ⟨i, j, hi, hj, hl⟩ := hg.mem_edges_iff.mp h
    exact ⟨i, j, hi, hj, linked_iff.mpr ⟨_, hl, rfl, rfl⟩⟩
  · intro h
    obtain ⟨i, j, hi, hj, hstep⟩ := h
    obtain ⟨l, hl, rfl, rfl⟩ := linked_iff.mp hstep
    exact ⟨l.line, hg.mem_edges_iff.mpr ⟨l.source, l.target, hi, hj, hl⟩⟩

/-! ### Counting -/

/-- Every link starts from one of the positions below a bound, so counting them
position by position counts them all. -/
theorem sum_countP_tail {ls : List Link} {d : Direction} {n : Nat} (h : ∀ l ∈ ls, l.tail d < n) :
    ∑ i ∈ Finset.range n, ls.countP (·.tail d == i) = ls.length := by
  induction ls with
  | nil => simp
  | cons l ls ih =>
      have hl : l.tail d ∈ Finset.range n := Finset.mem_range.mpr (h l List.mem_cons_self)
      simp only [List.countP_cons, Finset.sum_add_distrib, List.length_cons, beq_iff_eq]
      rw [ih fun m hm => h m (List.mem_cons_of_mem l hm), Finset.sum_ite_eq, if_pos hl]

theorem WellFormed.sum_degree {g : Graph} (hg : g.WellFormed) (d : Direction) :
    (g.entities.toList.map (Entity.degree d)).sum = g.edgeCount := by
  have hdegree : ∀ i ∈ Finset.range g.entityCount,
      (g.node i).degree d = g.links.toList.countP (·.tail d == i) := by
    intro i hi
    rw [hg.degree_eq d i (Finset.mem_range.mp hi), length_neighbours]
  have hsum : (g.entities.toList.map (Entity.degree d)).sum =
      ∑ i ∈ Finset.range g.entityCount, (g.node i).degree d := by
    rw [toList_entities, List.map_map]
    rfl
  rw [hsum, Finset.sum_congr rfl hdegree, sum_countP_tail]
  · exact Array.length_toList
  · intro l hl
    exact hg.inBounds l (Array.mem_toList_iff.mp hl) d

/-- No ordered pair of ids has two edges. -/
theorem WellFormed.nodup_edges {g : Graph} (hg : g.WellFormed) :
    (g.edges.map fun e => (e.source, e.target)).Nodup := by
  rw [(g.edges_perm.map _).nodup_iff, List.map_map]
  refine List.Nodup.map_on ?_ hg.pairs_nodup.of_map
  intro l hl m hm heq
  obtain ⟨hs, ht⟩ := Prod.mk.inj heq
  have hl' := hg.inBounds l (Array.mem_toList_iff.mp hl)
  have hm' := hg.inBounds m (Array.mem_toList_iff.mp hm)
  have hpair : l.pair = m.pair := (Link.pair_eq_iff .downstream).mpr
    ⟨hg.node_id_inj (hl' .downstream) (hm' .downstream) hs,
      hg.node_id_inj (hl' .upstream) (hm' .upstream) ht⟩
  exact List.inj_on_of_nodup_map hg.pairs_nodup hl hm hpair

/-! ### Agreement -/

/-- What the questions about a graph answer fits together. -/
structure Coherent (g : Graph) : Prop where
  /-- No ordered pair has two edges. -/
  edges_nodup : (g.edges.map fun e => (e.source, e.target)).Nodup
  length_edges : g.edges.length = g.edgeCount
  /-- The out-degree counts the callees, which come by increasing id. -/
  callees_eq : ∀ e ∈ g.entities, ∃ es, g.callees e.id = .ok es ∧ e.outDegree = es.length ∧
    (∀ c ∈ es, c ∈ g.entities) ∧ es.Nodup ∧ es.Pairwise fun a b => a.id < b.id
  /-- The in-degree counts the callers, which come by increasing id. -/
  callers_eq : ∀ e ∈ g.entities, ∃ es, g.callers e.id = .ok es ∧ e.inDegree = es.length ∧
    (∀ c ∈ es, c ∈ g.entities) ∧ es.Nodup ∧ es.Pairwise fun a b => a.id < b.id
  hasEdge_iff_callees : ∀ s t, g.hasEdge s t = true ↔
    ∃ es, g.callees s = .ok es ∧ ∃ e ∈ es, e.id = t
  hasEdge_iff_callers : ∀ s t, g.hasEdge s t = true ↔
    ∃ es, g.callers t = .ok es ∧ ∃ e ∈ es, e.id = s
  hasEdge_iff_edges : ∀ s t, g.hasEdge s t = true ↔ ∃ line, ⟨s, t, line⟩ ∈ g.edges
  sum_outDegree : (g.entities.toList.map (·.outDegree)).sum = g.edgeCount
  sum_inDegree : (g.entities.toList.map (·.inDegree)).sum = g.edgeCount
  ids_nodup : (g.entities.toList.map (·.id)).Nodup
  /-- An entity is found under its own id and no other. -/
  entity?_eq : ∀ id e, g.entity? id = some e ↔ e ∈ g.entities ∧ e.id = id

/-- **The views of a well-formed graph agree.** -/
theorem WellFormed.coherent {g : Graph} (hg : g.WellFormed) : g.Coherent where
  edges_nodup := hg.nodup_edges
  length_edges := by
    rw [g.edges_perm.length_eq, List.length_map]
    exact Array.length_toList
  callees_eq := fun _ he => hg.adjacent_spec .downstream he
  callers_eq := fun _ he => hg.adjacent_spec .upstream he
  hasEdge_iff_callees := fun _ _ => hasEdge_iff.trans hg.mem_adjacent_iff.symm
  hasEdge_iff_callers := fun _ _ =>
    (hasEdge_iff.trans stepById_upstream.symm).trans hg.mem_adjacent_iff.symm
  hasEdge_iff_edges := fun _ _ => hasEdge_iff.trans hg.exists_mem_edges_iff.symm
  sum_outDegree := hg.sum_degree .downstream
  sum_inDegree := hg.sum_degree .upstream
  ids_nodup := hg.distinctIds
  entity?_eq := fun _ _ => hg.entity?_eq_some

end CallAtlas.Graph
