import Mathlib
import CallAtlas.Proofs.Graph.LinkOrder
import CallAtlas.Proofs.Snapshot.Rebuild

/-!
# A graph survives its snapshot

A snapshot lists the edges sorted, so the graph that is built from it makes its
links in another order than the first graph did, and counts its degrees anew. It has
the same entities, degrees included, and links the same pairs
(`WellFormed.exists_rebuilt`). The order of the links does not show, so nothing that
can be asked tells the two graphs apart.
-/

namespace CallAtlas.Graph

/-- **What a graph says in its snapshot fits together.** -/
theorem WellFormed.consistent_snapshot {g : Graph} (hg : g.WellFormed) :
    g.snapshot.Consistent := by
  have hdegree : ∀ a ∈ g.snapshot.entities, ∀ d,
      a.degree d = g.edges.countP (·.tail d == a.id) := by
    intro a ha d
    obtain ⟨i, hi, rfl⟩ := mem_entities.mp (Array.mem_toList_iff.mp ha)
    rw [hg.degree_eq_countP d hi, g.edges_perm_edgesMade.countP_eq]
  refine ⟨rfl, hg.distinctIds, hg.nodup_edges, ?_, fun a ha => hdegree a ha .downstream,
    fun a ha => hdegree a ha .upstream⟩
  intro e he
  obtain ⟨l, hl, rfl⟩ := mem_edges.mp he
  have hs := hg.inBounds l hl .downstream
  have ht := hg.inBounds l hl .upstream
  exact ⟨⟨g.node l.source, Array.mem_toList_iff.mpr (mem_entities.mpr ⟨_, hs, rfl⟩), rfl⟩,
    ⟨g.node l.target, Array.mem_toList_iff.mpr (mem_entities.mpr ⟨_, ht, rfl⟩), rfl⟩⟩

/-- Edges that were made in order are sorted already. -/
theorem edges_eq_of_edgesMade {g g' : Graph} (h : g'.edgesMade = g.edges) :
    g'.edges = g.edges := by
  have hsort : g'.edges = g'.edgesMade.mergeSort fun a b => (a.order b).isLE := rfl
  rw [hsort, h]
  exact List.mergeSort_of_pairwise g.edges_pairwise

/-- The edges between two ids are those of the list of edges. -/
theorem hasEdge_eq_of_edges {g g' : Graph} (hg : g.WellFormed) (hg' : g'.WellFormed)
    (h : g'.edges = g.edges) (s t : String) : g'.hasEdge s t = g.hasEdge s t := by
  rw [Bool.eq_iff_iff, hasEdge_iff, hasEdge_iff, ← hg'.exists_mem_edges_iff,
    ← hg.exists_mem_edges_iff, h]

/-- The snapshot of a graph gives a graph with its entities and its links, made in
the order of the edges. -/
theorem WellFormed.exists_rebuilt {g : Graph} (hg : g.WellFormed) :
    ∃ g', ofSnapshot g.snapshot = .ok g' ∧ g'.WellFormed ∧ g'.edgesMade = g.edges ∧
      SameLinks g g' := by
  rcases ofSnapshot_cases (s := g.snapshot) rfl with ⟨_, g', hok, hg', hents, hmade⟩ | ⟨hno, _⟩
  · have hedges : g'.edges = g.edges := edges_eq_of_edgesMade hmade
    have hents : g'.entities = g.entities := Array.toList_inj.mp hents
    exact ⟨g', hok, hg', hmade, .of_hasEdge hg hg' hents (hasEdge_eq_of_edges hg hg' hedges)⟩
  · exact absurd hg.consistent_snapshot hno

/-- **A graph survives its snapshot.** Whatever entities were offered and whatever
insertions were tried, the snapshot of the graph gives a graph again. It makes its
edges in their sorted order, has the same entities in the same order with every
field, the same edges and the same snapshot, and it answers every question as the
first graph does. -/
theorem ofSnapshot_snapshot (entities : List Entity) (insertions : List Edge) :
    let g := ofInsertions entities insertions
    ∃ g', ofSnapshot g.snapshot = .ok g' ∧ g'.edgesMade = g.edges ∧ g'.entities = g.entities ∧
      g'.edges = g.edges ∧ g'.snapshot = g.snapshot ∧ SameAnswers g g' := by
  intro g
  have hg : g.WellFormed := wellFormed_ofInsertions entities insertions
  obtain ⟨g', hok, hg', hmade, hlinks⟩ := hg.exists_rebuilt
  have hedges := edges_eq_of_edgesMade hmade
  refine ⟨g', hok, hmade, hlinks.entities_eq, hedges, ?_, hlinks.sameAnswers hg hg'⟩
  unfold snapshot
  rw [hlinks.entities_eq, hedges, hlinks.summary_eq hg hg']

end CallAtlas.Graph
