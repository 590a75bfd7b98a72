import Mathlib
import CallAtlas.Proofs.Graph.Insertion
import CallAtlas.Proofs.Graph.Sorting
import CallAtlas.Snapshot.Basic

/-!
# Building a graph from a snapshot

A snapshot comes from outside, so nothing about it can be taken for granted. It
gives a graph exactly when it is `Consistent`: it has the right version, its ids and
its edges are distinct, every edge joins two of its entities, and the degrees it
records count its edges.

Each of the three steps of `ofSnapshot` is described by one lemma that says both
when the step succeeds, and with what, and how it fails: `arenaOf_cases`,
`withEdges_cases` and `checkDegrees_cases`. The degrees that were recorded play no
part before the last step, which compares them with those that the rebuilt graph
counts; what these are is `WellFormed.degree_eq_countP`.
-/

namespace CallAtlas

/-! ### Entities and edges -/

/-- An entity is known by its degrees and the rest of it. -/
theorem Entity.eq_of_unlinked {a b : Entity} (h : a.unlinked = b.unlinked)
    (hdegree : ∀ d, a.degree d = b.degree d) : a = b := by
  have hout : a.outDegree = b.outDegree := hdegree .downstream
  have hin : a.inDegree = b.inDegree := hdegree .upstream
  cases a
  cases b
  simp_all [unlinked]

theorem Arena.distinctIds_empty : DistinctIds empty.entities := List.nodup_nil

/-- The pair of ids that an edge joins. -/
def Edge.pair (e : Edge) : String × String := (e.source, e.target)

/-- The id an edge starts from when it is followed in a direction. -/
def Edge.tail : Direction → Edge → String
  | .downstream, e => e.source
  | .upstream, e => e.target

/-- Everything that a snapshot says fits together. -/
structure Snapshot.Consistent (s : Snapshot) : Prop where
  version_eq : s.version = 1
  ids_nodup : (s.entities.map (·.id)).Nodup
  pairs_nodup : (s.edges.map fun e => (e.source, e.target)).Nodup
  /-- Every edge joins two entities of the snapshot. -/
  ends_known : ∀ e ∈ s.edges,
    (∃ a ∈ s.entities, a.id = e.source) ∧ ∃ b ∈ s.entities, b.id = e.target
  outDegree_eq : ∀ a ∈ s.entities, a.outDegree = s.edges.countP (·.source == a.id)
  inDegree_eq : ∀ a ∈ s.entities, a.inDegree = s.edges.countP (·.target == a.id)

namespace Graph

/-- The edges in the order they were made. -/
def edgesMade (g : Graph) : List Edge := g.links.toList.map g.edgeOf

theorem edges_perm_edgesMade (g : Graph) : g.edges.Perm g.edgesMade := edges_perm g

/-- The degree of an entity is the number of edges that start from its id. -/
theorem WellFormed.degree_eq_countP {g : Graph} (hg : g.WellFormed) (d : Direction) {i : Nat}
    (hi : i < g.entityCount) :
    (g.node i).degree d = g.edgesMade.countP (·.tail d == (g.node i).id) := by
  have htail : ∀ l, (g.edgeOf l).tail d = (g.node (l.tail d)).id := by
    intro l
    cases d <;> rfl
  unfold edgesMade
  rw [hg.degree_eq d i hi, length_neighbours, List.countP_map]
  refine List.countP_congr fun l hl => ?_
  have hl := hg.inBounds l (Array.mem_toList_iff.mp hl) d
  rw [Function.comp_apply, htail, beq_iff_eq, beq_iff_eq]
  constructor
  · intro heq
    rw [heq]
  · exact hg.node_id_inj hl hi

/-- With more edges, no entity has a smaller degree. -/
theorem WellFormed.degree_le_of_edges_subset {g g' : Graph} (hg : g.WellFormed)
    (hg' : g'.WellFormed) (hedges : g.edges ⊆ g'.edges) {i j : Nat} (hi : i < g.entityCount)
    (hj : j < g'.entityCount) (hid : (g.node i).id = (g'.node j).id) (d : Direction) :
    (g.node i).degree d ≤ (g'.node j).degree d := by
  rw [hg.degree_eq_countP d hi, hg'.degree_eq_countP d hj, hid,
    ← g.edges_perm_edgesMade.countP_eq, ← g'.edges_perm_edgesMade.countP_eq]
  exact (hg.nodup_edges.of_map.subperm hedges).countP_le _

/-- Which ids are known does not depend on degrees. -/
theorem map_id_of_unlinked {g g' : Graph}
    (h : g'.entities.map Entity.unlinked = g.entities.map Entity.unlinked) :
    g'.entities.toList.map Entity.id = g.entities.toList.map Entity.id := by
  have hmap := congrArg (fun es : Array Entity => es.toList.map Entity.id) h
  simpa [Function.comp_def, Entity.unlinked] using hmap

/-! ### The steps -/

/-- Entities are collected exactly when their ids differ from each other and from
those that are there. -/
theorem arenaOf_cases (es : List Entity) :
    ∀ {a : Arena}, DistinctIds a.entities →
      (((a.entities.toList ++ es).map Entity.id).Nodup ∧
        ∃ a', arenaOf a es = .ok a' ∧ a'.entities.toList = a.entities.toList ++ es) ∨
      (¬ ((a.entities.toList ++ es).map Entity.id).Nodup ∧
        ∃ reason, arenaOf a es = .error (.invalidSnapshot reason)) := by
  induction es with
  | nil =>
      intro a ha
      rw [List.append_nil]
      exact Or.inl ⟨ha, a, rfl, rfl⟩
  | cons e es ih =>
      intro a ha
      rw [arenaOf]
      by_cases htaken : a.contains e.id = true
      · rw [if_pos htaken]
        refine Or.inr ⟨?_, _, rfl⟩
        rw [List.map_append, List.nodup_append]
        rintro ⟨_, _, hne⟩
        exact hne e.id (Arena.contains_iff_mem.mp htaken) e.id List.mem_cons_self rfl
      · have hins : (a.insert e).entities.toList = a.entities.toList ++ [e] := by
          rw [Arena.insert, if_neg htaken, Array.toList_push]
        have hdistinct : DistinctIds (a.insert e).entities := by
          unfold DistinctIds
          rw [hins, List.map_append, List.nodup_append]
          refine ⟨ha, List.nodup_singleton _, ?_⟩
          intro id hmem id' hid' heq
          rw [List.map_singleton, List.mem_singleton] at hid'
          rw [heq, hid'] at hmem
          exact htaken (Arena.contains_iff_mem.mpr hmem)
        have hnext := ih hdistinct
        rw [hins, List.append_assoc, List.singleton_append] at hnext
        rw [if_neg htaken]
        exact hnext

/-- These edges can all be added to a graph: their ends are known, and no pair is
linked already or comes twice. -/
structure Admits (g : Graph) (es : List Edge) : Prop where
  known : ∀ e ∈ es, g.contains e.source = true ∧ g.contains e.target = true
  fresh : ((g.edgesMade ++ es).map Edge.pair).Nodup

/-- The pairs that are linked are those of the edges made. -/
theorem WellFormed.hasEdge_iff_mem {g : Graph} (hg : g.WellFormed) {s t : String} :
    g.hasEdge s t = true ↔ (s, t) ∈ g.edgesMade.map Edge.pair := by
  rw [hasEdge_iff, ← hg.exists_mem_edges_iff, List.mem_map]
  constructor
  · intro h
    obtain ⟨line, h⟩ := h
    exact ⟨⟨s, t, line⟩, g.edges_perm_edgesMade.mem_iff.mp h, rfl⟩
  · intro h
    obtain ⟨e, he, heq⟩ := h
    obtain ⟨rfl, rfl⟩ := Prod.mk.inj heq
    exact ⟨e.line, g.edges_perm_edgesMade.mem_iff.mpr he⟩

section

variable {g : Graph} {e : Edge} {i j : Nat}

/-- A new edge is made last. -/
theorem WellFormed.edgesMade_link (hg : g.WellFormed) (hi : g.indexOf? e.source = some i)
    (hj : g.indexOf? e.target = some j) (hl : g.linked i j = false) :
    (g.link i j e.line).edgesMade = g.edgesMade ++ [e] := by
  unfold edgesMade
  rw [map_edgeOf_link hl, edgeOf, (hg.indexOf?_eq_some.mp hi).2, (hg.indexOf?_eq_some.mp hj).2]

/-- Edges can be added after a new one exactly when they can be added with it. -/
theorem WellFormed.admits_link_iff (hg : g.WellFormed) (hi : g.indexOf? e.source = some i)
    (hj : g.indexOf? e.target = some j) (hl : g.linked i j = false) (es : List Edge) :
    (g.link i j e.line).Admits es ↔ g.Admits (e :: es) := by
  have hmade := hg.edgesMade_link hi hj hl
  have hknown : ∀ id, (g.link i j e.line).contains id = true ↔ g.contains id = true := by
    intro id
    rw [contains_iff_mem, contains_iff_mem, map_id_of_unlinked (unlinked_link g i j e.line)]
  constructor
  · intro h
    refine ⟨List.forall_mem_cons.mpr ⟨?_, fun e' he' => ?_⟩, by simpa [hmade] using h.fresh⟩
    · exact ⟨contains_iff.mpr ⟨i, hi⟩, contains_iff.mpr ⟨j, hj⟩⟩
    · have hends := h.known e' he'
      rwa [hknown, hknown] at hends
  · intro h
    refine ⟨fun e' he' => ?_, by simpa [hmade] using h.fresh⟩
    rw [hknown, hknown]
    exact h.known e' (List.mem_cons_of_mem e he')

end

/-- Edges are added exactly when the graph admits them, in their order and without
any change to what is there but the degrees. -/
theorem withEdges_cases (es : List Edge) :
    ∀ {g : Graph}, g.WellFormed →
      (g.Admits es ∧ ∃ g', g.withEdges es = .ok g' ∧ g'.WellFormed ∧
        g'.entities.map Entity.unlinked = g.entities.map Entity.unlinked ∧
        g'.edgesMade = g.edgesMade ++ es) ∨
      (¬ g.Admits es ∧ ∃ reason, g.withEdges es = .error (.invalidSnapshot reason)) := by
  induction es with
  | nil =>
      intro g hg
      refine Or.inl ⟨⟨fun e he => absurd he List.not_mem_nil, ?_⟩, g, rfl, hg, rfl, ?_⟩
      · rw [List.append_nil]
        exact (g.edges_perm_edgesMade.map Edge.pair).nodup_iff.mp hg.nodup_edges
      · rw [List.append_nil]
  | cons e es ih =>
      intro g hg
      rw [withEdges]
      rcases insertEdge_cases g e.source e.target e.line with
        ⟨hs, h⟩ | ⟨_, ht, h⟩ | ⟨i, j, hi, hj, h⟩
      · rw [h]
        exact Or.inr ⟨fun hadmits => hs (hadmits.known e List.mem_cons_self).1, _, rfl⟩
      · rw [h]
        exact Or.inr ⟨fun hadmits => ht (hadmits.known e List.mem_cons_self).2, _, rfl⟩
      · rw [h]
        cases hl : g.linked i j with
        | true =>
            -- The pair is among those made, so it would come twice.
            have hmem : e.pair ∈ g.edgesMade.map Edge.pair :=
              hg.hasEdge_iff_mem.mp ((hasEdge_of_some hi hj).trans hl)
            refine Or.inr ⟨?_, _, rfl⟩
            intro hadmits
            have hfresh := hadmits.fresh
            rw [List.map_append, List.nodup_append] at hfresh
            exact hfresh.2.2 e.pair hmem e.pair List.mem_cons_self rfl
        | false =>
            have hadmits := hg.admits_link_iff hi hj hl es
            have hlink := hg.link (hg.indexOf?_eq_some.mp hi).1 (hg.indexOf?_eq_some.mp hj).1 e.line
            rcases ih hlink with ⟨ha, g', hok, hg', hents, hmade⟩ | ⟨ha, hfail⟩
            · refine Or.inl ⟨hadmits.mp ha, g', hok, hg', hents.trans (unlinked_link _ _ _ _), ?_⟩
              rw [hmade, hg.edgesMade_link hi hj hl, List.append_assoc, List.singleton_append]
            · exact Or.inr ⟨mt hadmits.mpr ha, hfail⟩

/-- Does a graph count the degrees that an entity has? -/
def CountsDegrees (g : Graph) (e : Entity) : Prop :=
  ∀ c ∈ g.entities, c.id = e.id → ∀ d, c.degree d = e.degree d

theorem WellFormed.countsDegrees_iff_of_find {g : Graph} (hg : g.WellFormed) {e c : Entity}
    (hfind : g.entity? e.id = some c) :
    g.CountsDegrees e ↔ c.outDegree = e.outDegree ∧ c.inDegree = e.inDegree := by
  constructor
  · intro h
    obtain ⟨hc, hid⟩ := hg.entity?_eq_some.mp hfind
    exact ⟨h c hc hid .downstream, h c hc hid .upstream⟩
  · intro h c' hc' hid d
    -- Only one entity has the id, so this is the one that was found.
    have hfind' : g.entity? e.id = some c' := hg.entity?_eq_some.mpr ⟨hc', hid⟩
    rw [hfind] at hfind'
    cases hfind'
    cases d with
    | downstream => exact h.1
    | upstream => exact h.2

/-- The check of degrees fails exactly where they differ, and always by saying so:
the entities are known. -/
theorem checkDegrees_cases {g : Graph} (hg : g.WellFormed) {es : List Entity}
    (hknown : ∀ e ∈ es, g.contains e.id = true) :
    ((∀ e ∈ es, g.CountsDegrees e) ∧ g.checkDegrees es = .ok ()) ∨
      (¬ (∀ e ∈ es, g.CountsDegrees e) ∧
        ∃ reason, g.checkDegrees es = .error (.invalidSnapshot reason)) := by
  induction es with
  | nil => exact Or.inl ⟨fun e he => absurd he List.not_mem_nil, rfl⟩
  | cons e es ih =>
      have hid := hknown e List.mem_cons_self
      rw [contains_iff_mem] at hid
      obtain ⟨c, hc, hcid⟩ := List.mem_map.mp hid
      have hfind : g.entity? e.id = some c :=
        hg.entity?_eq_some.mpr ⟨Array.mem_toList_iff.mp hc, hcid⟩
      have hget : g.get e.id = .ok c := by
        unfold get
        rw [hfind]
      have hcounts := hg.countsDegrees_iff_of_find hfind
      rw [checkDegrees, hget]
      dsimp only
      by_cases hsame : c.outDegree = e.outDegree ∧ c.inDegree = e.inDegree
      · rw [if_pos hsame]
        rcases ih fun e' he' => hknown e' (List.mem_cons_of_mem e he') with
          ⟨hall, hok⟩ | ⟨hsome, hfail⟩
        · exact Or.inl ⟨List.forall_mem_cons.mpr ⟨hcounts.mpr hsame, hall⟩, hok⟩
        · exact Or.inr ⟨fun h => hsome (List.forall_mem_cons.mp h).2, hfail⟩
      · rw [if_neg hsame]
        exact Or.inr ⟨fun h => hsame (hcounts.mp (List.forall_mem_cons.mp h).1), _, rfl⟩

/-! ### Whole snapshots -/

/-- The ids of a graph that was built from the entities of a snapshot. -/
theorem contains_iff_of_unlinked {g : Graph} {es : List Entity}
    (h : g.entities.toList.map Entity.unlinked = es.map Entity.unlinked) {id : String} :
    g.contains id = true ↔ ∃ a ∈ es, a.id = id := by
  have hids : g.entities.toList.map Entity.id = es.map Entity.id := by
    have hmap := congrArg (List.map Entity.id) h
    simpa [Function.comp_def, Entity.unlinked] using hmap
  rw [contains_iff_mem, hids, List.mem_map]

theorem edgesMade_ofCatalog (c : Catalog) : (ofCatalog c).edgesMade = [] := by
  simp [edgesMade]

theorem ofCatalog_admits_iff {c : Catalog} {es : List Edge} :
    (ofCatalog c).Admits es ↔ (es.map fun e => (e.source, e.target)).Nodup ∧ ∀ e ∈ es,
      (∃ a ∈ c.entities.toList, a.id = e.source) ∧ ∃ b ∈ c.entities.toList, b.id = e.target := by
  have hents : (ofCatalog c).entities.toList.map Entity.unlinked =
      c.entities.toList.map Entity.unlinked := by
    rw [entities_ofCatalog, Array.toList_map, List.map_map]
    rfl
  have hknown : ∀ id, (ofCatalog c).contains id = true ↔ ∃ a ∈ c.entities.toList, a.id = id :=
    fun id => contains_iff_of_unlinked hents
  constructor
  · intro h
    have hfresh := h.fresh
    rw [edgesMade_ofCatalog] at hfresh
    refine ⟨hfresh, fun e he => ?_⟩
    have hends := h.known e he
    rwa [hknown, hknown] at hends
  · intro h
    refine ⟨fun e he => ?_, by rw [edgesMade_ofCatalog]; exact h.1⟩
    rw [hknown, hknown]
    exact h.2 e he

section

variable {g : Graph} {s : Snapshot} (hg : g.WellFormed)
  (hents : g.entities.toList.map Entity.unlinked = s.entities.map Entity.unlinked)

include hg hents

/-- The degrees that the graph counts are the numbers of edges of the snapshot. -/
theorem WellFormed.countsDegrees_iff (hmade : g.edgesMade = s.edges) {a : Entity}
    (ha : a ∈ s.entities) :
    g.CountsDegrees a ↔ ∀ d, a.degree d = s.edges.countP (·.tail d == a.id) := by
  constructor
  · intro h d
    obtain ⟨i, hi⟩ := contains_iff.mp ((contains_iff_of_unlinked hents).mpr ⟨a, ha, rfl⟩)
    obtain ⟨hlt, hid⟩ := hg.indexOf?_eq_some.mp hi
    rw [← h (g.node i) (mem_entities.mpr ⟨i, hlt, rfl⟩) hid d, hg.degree_eq_countP d hlt, hmade,
      hid]
  · intro h c hc hid d
    obtain ⟨i, hlt, rfl⟩ := mem_entities.mp hc
    rw [h d, hg.degree_eq_countP d hlt, hmade, hid]

omit hg in
/-- Where the degrees agree as well, the entities of the graph are those of the
snapshot. -/
theorem toList_entities_of_countsDegrees (h : ∀ a ∈ s.entities, g.CountsDegrees a) :
    g.entities.toList = s.entities := by
  have hlen : g.entities.toList.length = s.entities.length := by
    have hmap := congrArg List.length hents
    rwa [List.length_map, List.length_map] at hmap
  apply List.ext_getElem hlen
  intro k hk hk'
  have hunlinked : g.entities.toList[k].unlinked = s.entities[k].unlinked := by
    have hget := congrArg (fun es : List Entity => es[k]?) hents
    simpa only [List.getElem?_map, List.getElem?_eq_getElem hk, List.getElem?_eq_getElem hk',
      Option.map_some, Option.some.injEq] using hget
  have hid : g.entities.toList[k].id = s.entities[k].id := by
    have hid := congrArg Entity.id hunlinked
    exact hid
  exact Entity.eq_of_unlinked hunlinked (h s.entities[k] (List.getElem_mem hk')
    g.entities.toList[k] (Array.mem_toList_iff.mp (List.getElem_mem hk)) hid)

end

theorem ofSnapshot_of_version_ne {s : Snapshot} (h : s.version ≠ 1) :
    ofSnapshot s = .error (.snapshotVersion s.version 1) := by
  unfold ofSnapshot
  exact if_pos h

/-- What a snapshot of the right version gives: a graph with its entities and edges
if it is consistent, and a reason why it is not otherwise. -/
theorem ofSnapshot_cases {s : Snapshot} (hv : s.version = 1) :
    (s.Consistent ∧ ∃ g, ofSnapshot s = .ok g ∧ g.WellFormed ∧ g.entities.toList = s.entities ∧
      g.edgesMade = s.edges) ∨
    (¬ s.Consistent ∧ ∃ reason, ofSnapshot s = .error (.invalidSnapshot reason)) := by
  unfold ofSnapshot
  rw [if_neg (not_not_intro (show s.version = snapshotVersion from hv))]
  rcases arenaOf_cases s.entities Arena.distinctIds_empty with
    ⟨hids, a, ha, hcents⟩ | ⟨hids, reason, hfail⟩
  · have hcents : a.freeze.entities.toList = s.entities := hcents
    have hdistinct : DistinctIds a.freeze.entities := by
      unfold DistinctIds
      rw [hcents]
      exact hids
    rw [ha]
    dsimp only
    rcases withEdges_cases s.edges (wellFormed_ofCatalog hdistinct) with
      ⟨hadmits, g, hok, hg, hunlinked, hmade⟩ | ⟨hadmits, reason, hfail⟩
    · have hents : g.entities.toList.map Entity.unlinked = s.entities.map Entity.unlinked := by
        rw [← Array.toList_map, hunlinked, entities_ofCatalog, Array.toList_map, Array.toList_map,
          List.map_map, hcents]
        rfl
      rw [edgesMade_ofCatalog, List.nil_append] at hmade
      have hknown : ∀ a ∈ s.entities, g.contains a.id = true :=
        fun a ha => (contains_iff_of_unlinked hents).mpr ⟨a, ha, rfl⟩
      rw [ofCatalog_admits_iff, hcents] at hadmits
      rw [hok]
      dsimp only
      rcases checkDegrees_cases hg hknown with ⟨hcounts, hok'⟩ | ⟨hcounts, reason, hfail⟩
      · have hdegree := fun a ha => (hg.countsDegrees_iff hents hmade ha).mp (hcounts a ha)
        rw [hok']
        refine Or.inl ⟨⟨hv, hids, hadmits.1, hadmits.2, fun a ha => hdegree a ha .downstream,
          fun a ha => hdegree a ha .upstream⟩, g, rfl, hg, ?_, hmade⟩
        exact toList_entities_of_countsDegrees hents hcounts
      · rw [hfail]
        refine Or.inr ⟨fun hs => hcounts fun a ha => ?_, reason, rfl⟩
        refine (hg.countsDegrees_iff hents hmade ha).mpr fun d => ?_
        cases d with
        | downstream => exact hs.outDegree_eq a ha
        | upstream => exact hs.inDegree_eq a ha
    · rw [hfail]
      refine Or.inr ⟨fun hs => hadmits ?_, reason, rfl⟩
      rw [ofCatalog_admits_iff, hcents]
      exact ⟨hs.pairs_nodup, hs.ends_known⟩
  · rw [hfail]
    exact Or.inr ⟨fun hs => hids hs.ids_nodup, reason, rfl⟩

/-- **A snapshot gives a graph exactly when it is consistent.** The graph then keeps
its invariant, so its views agree; its entities are those of the snapshot, in order
and with every field, and its edges are those of the snapshot, sorted. A snapshot
that gives no graph has another version, and the failure says which, or is invalid;
no entity is ever reported missing. -/
theorem ofSnapshot_exact (s : Snapshot) :
    ((∃ g, ofSnapshot s = .ok g) ↔ s.Consistent) ∧
    (∀ g, ofSnapshot s = .ok g → g.WellFormed ∧ g.Coherent ∧ g.entities.toList = s.entities ∧
      g.edges.Perm s.edges ∧ g.edges.Pairwise fun a b => (a.order b).isLE = true) ∧
    ∀ failure, ofSnapshot s = .error failure →
      (s.version ≠ 1 ∧ failure = .snapshotVersion s.version 1) ∨
        (s.version = 1 ∧ ∃ reason, failure = .invalidSnapshot reason) := by
  by_cases hv : s.version = 1
  · rcases ofSnapshot_cases hv with ⟨hs, g, h, hg, hents, hmade⟩ | ⟨hs, reason, h⟩
    · rw [h]
      refine ⟨⟨fun _ => hs, fun _ => ⟨g, rfl⟩⟩, ?_, nofun⟩
      intro g' hok
      cases hok
      exact ⟨hg, hg.coherent, hents, hmade ▸ g.edges_perm_edgesMade, g.edges_pairwise⟩
    · rw [h]
      refine ⟨⟨nofun, fun hs' => absurd hs' hs⟩, nofun, ?_⟩
      intro failure hfail
      cases hfail
      exact Or.inr ⟨hv, reason, rfl⟩
  · rw [ofSnapshot_of_version_ne hv]
    refine ⟨⟨nofun, fun hs => absurd hs.version_eq hv⟩, nofun, ?_⟩
    intro failure hfail
    cases hfail
    exact Or.inl ⟨hv, rfl⟩

end Graph

end CallAtlas
