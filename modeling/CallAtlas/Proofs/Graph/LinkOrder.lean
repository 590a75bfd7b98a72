import Mathlib
import CallAtlas.Impact.Report
import CallAtlas.Proofs.Graph.Reachability
import CallAtlas.Proofs.Graph.Sorting

/-!
# The order of links does not show

A graph keeps its links in the order they were made, and the neighbours of an
entity come in that order, newest first. Nothing that can be asked about the graph
shows it. `SameLinks` says that two graphs have the same entities and link the same
pairs; what can be asked is followed through, from the inside out:

* neighbours are the same up to their order, and sorting by id forgets the order
  (`SameLinks.adjacent_eq`);
* a search meets other positions first, but what it reaches are the ends of paths
  within the limit, and paths are the same (`SameLinks.reachable_perm`);
* what is said about a set of positions is a count, a question about any of them, or
  the sorted list.
-/

namespace CallAtlas.Graph

/-- Two graphs have the same entities and link the same pairs. When a pair was
linked, and by a call in which line, may differ. -/
structure SameLinks (g g' : Graph) : Prop where
  entities_eq : g'.entities = g.entities
  linked_eq : ∀ i j, g'.linked i j = g.linked i j

/-- Two graphs answer every question in the same way. -/
structure SameAnswers (g g' : Graph) : Prop where
  callees_eq : ∀ id, g'.callees id = g.callees id
  callers_eq : ∀ id, g'.callers id = g.callers id
  hasEdge_eq : ∀ s t, g'.hasEdge s t = g.hasEdge s t
  named_eq : ∀ name, g'.named name = g.named name
  inGroup_eq : ∀ group, g'.inGroup group = g.inGroup group
  groups_eq : g'.groups = g.groups
  entryPoints_eq : ∀ rule, g'.entryPoints rule = g.entryPoints rule
  summary_eq : g'.summary = g.summary
  ancestors_eq : ∀ s id, g'.ancestors s id = g.ancestors s id
  descendants_eq : ∀ s id, g'.descendants s id = g.descendants s id
  risk_eq : ∀ s id, g'.risk s id = g.risk s id
  impact_eq : ∀ s id, g'.impact s id = g.impact s id

namespace SameLinks

variable {g g' : Graph}

theorem symm (h : SameLinks g g') : SameLinks g' g :=
  ⟨h.entities_eq.symm, fun i j => (h.linked_eq i j).symm⟩

/-- It is enough that the edges by id are the same. -/
theorem of_hasEdge (hg : g.WellFormed) (hg' : g'.WellFormed) (hents : g'.entities = g.entities)
    (hedge : ∀ s t, g'.hasEdge s t = g.hasEdge s t) : SameLinks g g' where
  entities_eq := hents
  linked_eq := by
    intro i j
    have hcount : g'.entityCount = g.entityCount := congrArg Array.size hents
    have hnode : g'.node = g.node := by
      funext k
      unfold node
      rw [hents]
    rw [Bool.eq_iff_iff, hg'.linked_iff_hasEdge, hg.linked_iff_hasEdge, hcount, hnode, hedge]

/-! ### Entities and their positions -/

theorem node_eq (h : SameLinks g g') : g'.node = g.node := by
  funext i
  unfold node
  rw [h.entities_eq]

theorem sortedById_eq (h : SameLinks g g') (is : List Nat) :
    g'.sortedById is = g.sortedById is := by
  unfold sortedById
  rw [h.node_eq]

theorem indexOf?_eq (h : SameLinks g g') (id : String) : g'.indexOf? id = g.indexOf? id := by
  unfold indexOf?
  rw [g'.byId_eq, g.byId_eq, h.entities_eq]

theorem locate_eq (h : SameLinks g g') (id : String) : g'.locate id = g.locate id := by
  unfold locate
  rw [h.indexOf?_eq]

theorem hasEdge_eq (h : SameLinks g g') (s t : String) : g'.hasEdge s t = g.hasEdge s t := by
  unfold hasEdge
  rw [h.indexOf?_eq, h.indexOf?_eq]
  simp only [h.linked_eq]

/-! ### Steps and paths -/

theorem step_iff (h : SameLinks g g') {d : Direction} {i j : Nat} :
    g'.Step d i j ↔ g.Step d i j := by
  cases d <;> simp only [Step, h.linked_eq]

theorem path (h : SameLinks g g') {d : Direction} {start k i : Nat} (p : g.Path d start k i) :
    g'.Path d start k i := by
  induction p with
  | nil => exact .nil
  | snoc _ hstep ih => exact .snoc ih (h.step_iff.mpr hstep)

theorem path_iff (h : SameLinks g g') {d : Direction} {start k i : Nat} :
    g'.Path d start k i ↔ g.Path d start k i :=
  ⟨h.symm.path, h.path⟩

/-! ### Links -/

/-- The pairs that are linked are the same, in some order. -/
theorem pairs_perm (h : SameLinks g g') (hg : g.WellFormed) (hg' : g'.WellFormed) :
    (g'.links.toList.map Link.pair).Perm (g.links.toList.map Link.pair) := by
  rw [List.perm_ext_iff_of_nodup hg'.pairs_nodup hg.pairs_nodup]
  intro p
  rw [mem_pairs_iff, mem_pairs_iff, h.linked_eq]

theorem neighbours_perm (h : SameLinks g g') (hg : g.WellFormed) (hg' : g'.WellFormed)
    (d : Direction) (i : Nat) : (g'.neighbours d i).Perm (g.neighbours d i) := by
  rw [List.perm_ext_iff_of_nodup (hg'.nodup_neighbours d i) (hg.nodup_neighbours d i)]
  intro j
  rw [mem_neighbours, mem_neighbours, h.step_iff]

theorem reachable_perm (h : SameLinks g g') (hg : g.WellFormed) (hg' : g'.WellFormed)
    (d : Direction) (limit : Option Nat) (start : Nat) :
    (g'.reachable d limit start).Perm (g.reachable d limit start) := by
  rw [List.perm_ext_iff_of_nodup (hg'.nodup_reachable d limit start)
    (hg.nodup_reachable d limit start)]
  intro i
  simp only [hg'.mem_reachable_iff, hg.mem_reachable_iff, h.path_iff]

/-! ### Answers -/

theorem adjacent_eq (h : SameLinks g g') (hg : g.WellFormed) (hg' : g'.WellFormed)
    (d : Direction) (id : String) : g'.adjacent d id = g.adjacent d id := by
  have hsorted : ∀ i, g.sortedById (g'.neighbours d i) = g.sortedById (g.neighbours d i) := by
    intro i
    refine hg.sortedById_eq_of_perm (h.neighbours_perm hg hg' d i) fun j hj => ?_
    exact (hg.step_lt (h.step_iff.mp (mem_neighbours.mp hj))).2
  unfold adjacent
  simp only [h.locate_eq, h.node_eq, h.sortedById_eq, hsorted]

theorem transitiveAt_eq (h : SameLinks g g') (hg : g.WellFormed) (hg' : g'.WellFormed)
    (s : ImpactSettings) (d : Direction) (i : Nat) :
    g'.transitiveAt s d i = g.transitiveAt s d i := by
  unfold transitiveAt
  rw [h.node_eq, h.sortedById_eq,
    hg.sortedById_eq_of_perm (h.reachable_perm hg hg' d s.maxDepth i) ?_]
  intro j hj
  -- What is reached is not the start, so the path to it ends with a step.
  obtain ⟨hne, k, p, _⟩ := hg'.mem_reachable_iff.mp hj
  cases p with
  | nil => exact absurd rfl hne
  | snoc _ hstep => exact (hg.step_lt (h.step_iff.mp hstep)).2

theorem riskAt_eq (h : SameLinks g g') (hg : g.WellFormed) (hg' : g'.WellFormed)
    (s : ImpactSettings) (i : Nat) : g'.riskAt s i = g.riskAt s i := by
  have hup := h.reachable_perm hg hg' .upstream s.maxDepth i
  have hdown := h.reachable_perm hg hg' .downstream s.maxDepth i
  unfold riskAt
  dsimp only
  rw [hup.length_eq, hdown.length_eq, hup.any_eq, h.node_eq]

theorem impact_eq (h : SameLinks g g') (hg : g.WellFormed) (hg' : g'.WellFormed)
    (s : ImpactSettings) (id : String) : g'.impact s id = g.impact s id := by
  unfold impact callers callees
  simp only [h.locate_eq, h.adjacent_eq hg hg', h.transitiveAt_eq hg hg', h.riskAt_eq hg hg',
    h.node_eq]

theorem summary_eq (h : SameLinks g g') (hg : g.WellFormed) (hg' : g'.WellFormed) :
    g'.summary = g.summary := by
  have hpairs := h.pairs_perm hg hg'
  have hcount : g'.edgeCount = g.edgeCount := by simpa [edgeCount] using hpairs.length_eq
  have hself : g'.links.toList.countP (fun l => l.source == l.target) =
      g.links.toList.countP (fun l => l.source == l.target) := by
    have hcountP := hpairs.countP_eq fun p => p.1 == p.2
    rwa [List.countP_map, List.countP_map] at hcountP
  unfold summary entityCount
  rw [h.entities_eq, hcount, hself]

/-- **Graphs that link the same pairs of the same entities answer alike.** -/
theorem sameAnswers (h : SameLinks g g') (hg : g.WellFormed) (hg' : g'.WellFormed) :
    SameAnswers g g' where
  callees_eq := h.adjacent_eq hg hg' .downstream
  callers_eq := h.adjacent_eq hg hg' .upstream
  hasEdge_eq := h.hasEdge_eq
  named_eq := fun name => by
    rw [named_eq_filter, named_eq_filter, h.entities_eq]
  inGroup_eq := fun group => by rw [inGroup, h.entities_eq, inGroup]
  groups_eq := by rw [groups, h.entities_eq, groups]
  entryPoints_eq := fun rule => by rw [entryPoints, h.entities_eq, entryPoints]
  summary_eq := h.summary_eq hg hg'
  ancestors_eq := fun s id => by
    rw [ancestors, transitive, h.locate_eq, funext (h.transitiveAt_eq hg hg' s .upstream),
      ancestors, transitive]
  descendants_eq := fun s id => by
    rw [descendants, transitive, h.locate_eq, funext (h.transitiveAt_eq hg hg' s .downstream),
      descendants, transitive]
  risk_eq := fun s id => by
    rw [risk, h.locate_eq, funext (h.riskAt_eq hg hg' s), risk]
  impact_eq := h.impact_eq hg hg'

end SameLinks

end CallAtlas.Graph
