import CallAtlas.Graph.Basic
import CallAtlas.Proofs.Catalog

/-!
# The invariant of the call graph

A graph keeps the same facts in several places: the list of links, the degrees
stored in the entities, and the positions that links speak of. `WellFormed` says
that these agree, and every operation that makes or changes a graph keeps it.

**One lemma for both directions.** Almost everything is true downstream and
upstream for the same reason, so links and degrees are read through a
`Direction`: `Link.tail` is where a link starts when it is followed that way, and
`Entity.degree` counts the links that start there.

**What linking does.** `link` is described by three facts that every later proof
uses instead of its definition: the entities keep everything but their degrees
(`unlinked_link`), the links grow by the first-of-its-pair rule
(`toList_links_link`), and a new link adds one to the degrees at its two ends
(`node_link`).
-/

namespace CallAtlas

/-! ### Links and degrees along a direction -/

/-- The position a link starts from when it is followed in a direction. -/
def Link.tail : Direction → Link → Nat
  | .downstream, l => l.source
  | .upstream, l => l.target

/-- The position a link leads to when it is followed in a direction. -/
def Link.head : Direction → Link → Nat
  | .downstream, l => l.target
  | .upstream, l => l.source

/-- The ordered pair that a link joins. -/
def Link.pair (l : Link) : Nat × Nat := (l.source, l.target)

theorem Link.pair_eq_iff (d : Direction) {l m : Link} :
    l.pair = m.pair ↔ l.tail d = m.tail d ∧ l.head d = m.head d := by
  cases d with
  | downstream => simp [pair, tail, head]
  | upstream => simp [pair, tail, head, and_comm]

/-- How many links start from an entity when they are followed in a direction, as
the entity has it. -/
def Entity.degree : Direction → Entity → Nat
  | .downstream, e => e.outDegree
  | .upstream, e => e.inDegree

/-- Ids do not depend on degrees. -/
theorem DistinctIds.of_unlinked {es es' : Array Entity} (h : DistinctIds es)
    (heq : es'.map Entity.unlinked = es.map Entity.unlinked) : DistinctIds es' := by
  have hids : es'.toList.map Entity.id = es.toList.map Entity.id := by
    have hmap := congrArg (fun as : Array Entity => as.toList.map Entity.id) heq
    simpa [Function.comp_def, Entity.unlinked] using hmap
  unfold DistinctIds
  rw [hids]
  exact h

namespace Graph

/-! ### Positions and entities -/

theorem getElem?_entities {g : Graph} {i : Nat} (hi : i < g.entityCount) :
    g.entities[i]? = some (g.node i) := by
  unfold node
  rw [Array.getElem?_eq_getElem hi, Option.getD_some]

theorem node_of_getElem? {g : Graph} {i : Nat} {e : Entity} (h : g.entities[i]? = some e) :
    i < g.entityCount ∧ g.node i = e := by
  obtain ⟨hi, _⟩ := Array.getElem?_eq_some_iff.mp h
  exact ⟨hi, by unfold node; rw [h, Option.getD_some]⟩

theorem mem_entities {g : Graph} {e : Entity} :
    e ∈ g.entities ↔ ∃ i < g.entityCount, g.node i = e := by
  rw [Array.mem_iff_getElem?]
  constructor
  · intro h
    obtain ⟨i, hi⟩ := h
    exact ⟨i, node_of_getElem? hi⟩
  · intro h
    obtain ⟨i, hi, rfl⟩ := h
    exact ⟨i, getElem?_entities hi⟩

theorem toList_entities (g : Graph) :
    g.entities.toList = (List.range g.entityCount).map g.node := by
  apply List.ext_getElem?
  intro i
  rw [Array.getElem?_toList, List.getElem?_map]
  by_cases hi : i < g.entityCount
  · rw [getElem?_entities hi, List.getElem?_range hi, Option.map_some]
  · rw [Array.getElem?_eq_none (by simpa [entityCount] using hi),
      List.getElem?_eq_none (by simpa using hi), Option.map_none]

/-! ### Neighbours -/

theorem linked_iff {g : Graph} {i j : Nat} :
    g.linked i j = true ↔ ∃ l ∈ g.links, l.source = i ∧ l.target = j := by
  unfold linked
  rw [← Array.any_toList, List.any_eq_true]
  simp only [Array.mem_toList_iff, Bool.and_eq_true, beq_iff_eq]

theorem mem_pairs_iff {g : Graph} {p : Nat × Nat} :
    p ∈ g.links.toList.map Link.pair ↔ g.linked p.1 p.2 = true := by
  rw [linked_iff, List.mem_map]
  simp only [Array.mem_toList_iff, Link.pair, Prod.ext_iff]

/-- One step from a position to another along a link, in a direction. -/
def Step (g : Graph) : Direction → Nat → Nat → Prop
  | .downstream, i, j => g.linked i j = true
  | .upstream, i, j => g.linked j i = true

theorem step_iff {g : Graph} {d : Direction} {i j : Nat} :
    g.Step d i j ↔ ∃ l ∈ g.links, l.tail d = i ∧ l.head d = j := by
  cases d with
  | downstream => exact linked_iff
  | upstream => simp only [Step, linked_iff, Link.tail, Link.head, and_comm]

theorem neighbours_eq (g : Graph) (d : Direction) (i : Nat) :
    g.neighbours d i = (g.links.toList.reverse.filter (·.tail d == i)).map (·.head d) := by
  cases d <;> rfl

theorem mem_neighbours {g : Graph} {d : Direction} {i j : Nat} :
    j ∈ g.neighbours d i ↔ g.Step d i j := by
  rw [neighbours_eq, step_iff]
  simp only [List.mem_map, List.mem_filter, List.mem_reverse, Array.mem_toList_iff, beq_iff_eq,
    and_assoc]

theorem length_neighbours (g : Graph) (d : Direction) (i : Nat) :
    (g.neighbours d i).length = g.links.toList.countP (·.tail d == i) := by
  rw [neighbours_eq, List.length_map, ← List.countP_eq_length_filter, List.countP_reverse]

/-! ### The invariant -/

/-- The facts a graph keeps in more than one place agree. -/
structure WellFormed (g : Graph) : Prop where
  /-- An id belongs to one entity. -/
  distinctIds : DistinctIds g.entities
  /-- Links join positions of the graph. -/
  inBounds : ∀ l ∈ g.links, ∀ d, l.tail d < g.entityCount
  /-- No ordered pair is linked twice. -/
  pairs_nodup : (g.links.toList.map Link.pair).Nodup
  /-- The degree of an entity counts its neighbours. -/
  degree_eq : ∀ d, ∀ i < g.entityCount, (g.node i).degree d = (g.neighbours d i).length

theorem WellFormed.step_lt {g : Graph} (hg : g.WellFormed) {d : Direction} {i j : Nat}
    (h : g.Step d i j) : i < g.entityCount ∧ j < g.entityCount := by
  obtain ⟨l, hl, rfl, rfl⟩ := step_iff.mp h
  have hs := hg.inBounds l hl .downstream
  have ht := hg.inBounds l hl .upstream
  cases d with
  | downstream => exact ⟨hs, ht⟩
  | upstream => exact ⟨ht, hs⟩

/-- A neighbour is listed once: its link is the only one of its pair. -/
theorem WellFormed.nodup_neighbours {g : Graph} (hg : g.WellFormed) (d : Direction) (i : Nat) :
    (g.neighbours d i).Nodup := by
  rw [neighbours_eq]
  apply List.Nodup.map_on
  · intro l hl m hm hhead
    simp only [List.mem_filter, List.mem_reverse, beq_iff_eq] at hl hm
    have hpair : l.pair = m.pair :=
      (Link.pair_eq_iff d).mpr ⟨hl.2.trans hm.2.symm, hhead⟩
    exact List.inj_on_of_nodup_map hg.pairs_nodup hl.1 hm.1 hpair
  · exact (List.nodup_reverse.mpr hg.pairs_nodup.of_map).filter _

/-! ### The graph of a catalog -/

theorem entities_foldl_addNode (g : Graph) (es : List Entity) :
    (es.foldl addNode g).entities.toList = g.entities.toList ++ es.map Entity.unlinked := by
  induction es generalizing g with
  | nil => simp
  | cons e es ih => simp [ih, addNode]

theorem links_foldl_addNode (g : Graph) (es : List Entity) :
    (es.foldl addNode g).links = g.links := by
  induction es generalizing g with
  | nil => rfl
  | cons e es ih => rw [List.foldl_cons, ih, addNode]

@[simp] theorem entities_ofCatalog (c : Catalog) :
    (ofCatalog c).entities = c.entities.map Entity.unlinked := by
  apply Array.toList_inj.mp
  rw [ofCatalog, ← Array.foldl_toList, entities_foldl_addNode, Array.toList_map]
  rfl

@[simp] theorem links_ofCatalog (c : Catalog) : (ofCatalog c).links = #[] := by
  rw [ofCatalog, ← Array.foldl_toList, links_foldl_addNode]
  rfl

theorem wellFormed_ofCatalog {c : Catalog} (hc : DistinctIds c.entities) :
    (ofCatalog c).WellFormed where
  distinctIds := by
    have hid : Entity.id ∘ Entity.unlinked = Entity.id := rfl
    unfold DistinctIds
    rw [entities_ofCatalog, Array.toList_map, List.map_map, hid]
    exact hc
  inBounds := by simp
  pairs_nodup := by simp
  degree_eq := by
    intro d i hi
    have hi' : i < c.entities.size := by simpa [entityCount] using hi
    have hnode : (ofCatalog c).node i = c.entities[i].unlinked := by
      simp [node, hi']
    rw [hnode, length_neighbours]
    cases d <;> simp [Entity.degree, Entity.unlinked]

/-! ### What linking does -/

theorem node_modifyNode (g : Graph) (k : Nat) (f : Entity → Entity)
    (hf : ∀ e, (f e).id = e.id ∧ (f e).name = e.name) {i : Nat} (hi : i < g.entityCount) :
    (g.modifyNode k f hf).node i = if k = i then f (g.node i) else g.node i := by
  unfold modifyNode node
  rw [Array.getElem?_modify, Array.getElem?_eq_getElem hi]
  split <;> rfl

theorem link_of_linked {g : Graph} {s t : Nat} (h : g.linked s t = true) (line : Nat) :
    g.link s t line = g := by
  unfold link
  rw [if_pos h]

@[simp] theorem entityCount_link (g : Graph) (s t line : Nat) :
    (g.link s t line).entityCount = g.entityCount := by
  unfold link
  split
  · rfl
  · simp [entityCount, modifyNode]

/-- No link joins a pair that is not linked. -/
theorem pair_ne_of_not_linked {g : Graph} {s t : Nat} (h : g.linked s t = false) (line : Nat) :
    ∀ l ∈ g.links.toList, l.pair ≠ Link.pair ⟨s, t, line⟩ := by
  intro l hl hpair
  obtain ⟨hs, ht⟩ := (Link.pair_eq_iff .downstream).mp hpair
  have hlinked : g.linked s t = true := linked_iff.mpr ⟨l, by simpa using hl, hs, ht⟩
  rw [h] at hlinked
  cases hlinked

/-- The links grow by the first-of-its-pair rule. -/
theorem toList_links_link (g : Graph) (s t line : Nat) :
    (g.link s t line).links.toList = pushNew Link.pair g.links.toList ⟨s, t, line⟩ := by
  cases h : g.linked s t with
  | true =>
      obtain ⟨l, hl, rfl, rfl⟩ := linked_iff.mp h
      have hpair : l.pair = Link.pair ⟨l.source, l.target, line⟩ := rfl
      rw [link_of_linked h, pushNew_of_mem (Array.mem_toList_iff.mpr hl) hpair]
  | false =>
      rw [pushNew_of_forall_ne (pair_ne_of_not_linked h line)]
      unfold link
      rw [if_neg (by simp [h])]
      simp [modifyNode]

/-- A new link adds one to the degrees at its two ends, which may be the same
entity, and leaves everything else of an entity alone. -/
theorem node_link {g : Graph} {s t : Nat} (h : g.linked s t = false) (line : Nat) {i : Nat}
    (hi : i < g.entityCount) :
    (g.link s t line).node i =
      { g.node i with
        outDegree := (g.node i).outDegree + if s = i then 1 else 0
        inDegree := (g.node i).inDegree + if t = i then 1 else 0 } := by
  unfold link
  rw [if_neg (by simp [h])]
  dsimp only
  rw [node_modifyNode _ t _ _ (by simpa [entityCount, modifyNode] using hi),
    node_modifyNode _ s _ _ (by simpa [entityCount] using hi)]
  have hnode : Graph.node { g with links := g.links.push ⟨s, t, line⟩ } i = g.node i := rfl
  rw [hnode]
  by_cases hs : s = i <;> by_cases ht : t = i <;> simp [hs, ht]

/-- Entities keep everything but their degrees. -/
theorem unlinked_link (g : Graph) (s t line : Nat) :
    (g.link s t line).entities.map Entity.unlinked = g.entities.map Entity.unlinked := by
  cases h : g.linked s t with
  | true => rw [link_of_linked h]
  | false =>
      apply Array.ext
      · simpa [entityCount] using entityCount_link g s t line
      · intro i hi hi'
        have hig : i < g.entityCount := by simpa [entityCount] using hi'
        have hil : i < (g.link s t line).entityCount := by simpa using hig
        have hnode := node_link h line hig
        have hget := getElem?_entities hig
        have hgetl := getElem?_entities hil
        obtain ⟨_, hget⟩ := Array.getElem?_eq_some_iff.mp hget
        obtain ⟨_, hgetl⟩ := Array.getElem?_eq_some_iff.mp hgetl
        rw [Array.getElem_map, Array.getElem_map, hget, hgetl, hnode]
        rfl

/-- A new link is the newest neighbour of its tail. -/
theorem neighbours_link {g : Graph} {s t : Nat} (h : g.linked s t = false) (line : Nat)
    (d : Direction) (i : Nat) :
    (g.link s t line).neighbours d i =
      if Link.tail d ⟨s, t, line⟩ = i then Link.head d ⟨s, t, line⟩ :: g.neighbours d i
      else g.neighbours d i := by
  rw [neighbours_eq, neighbours_eq, toList_links_link,
    pushNew_of_forall_ne (pair_ne_of_not_linked h line), List.reverse_append,
    List.reverse_singleton, List.singleton_append, List.filter_cons]
  by_cases hi : Link.tail d ⟨s, t, line⟩ = i <;> simp [hi]

/-- The degree of an entity grows with its neighbours. -/
theorem degree_link {g : Graph} {s t : Nat} (h : g.linked s t = false) (line : Nat)
    (d : Direction) {i : Nat} (hi : i < g.entityCount) :
    ((g.link s t line).node i).degree d =
      (g.node i).degree d + if Link.tail d ⟨s, t, line⟩ = i then 1 else 0 := by
  rw [node_link h line hi]
  cases d <;> rfl

/-- **Linking keeps the invariant**, whether or not the pair is new and whether or
not its ends differ. -/
theorem WellFormed.link {g : Graph} (hg : g.WellFormed) {s t : Nat} (hs : s < g.entityCount)
    (ht : t < g.entityCount) (line : Nat) : (g.link s t line).WellFormed := by
  cases h : g.linked s t with
  | true => rw [link_of_linked h]; exact hg
  | false =>
      have hlinks := toList_links_link g s t line
      rw [pushNew_of_forall_ne (pair_ne_of_not_linked h line)] at hlinks
      refine ⟨hg.distinctIds.of_unlinked (unlinked_link g s t line), ?_, ?_, ?_⟩
      · intro l hl d
        rw [← Array.mem_toList_iff, hlinks, List.mem_append, List.mem_singleton] at hl
        rw [entityCount_link]
        rcases hl with hl | rfl
        · exact hg.inBounds l (by simpa using hl) d
        · cases d with
          | downstream => exact hs
          | upstream => exact ht
      · rw [hlinks, List.map_append, List.nodup_append]
        refine ⟨hg.pairs_nodup, List.nodup_singleton _, ?_⟩
        intro p hp q hq hpq
        obtain ⟨l, hl, rfl⟩ := List.mem_map.mp hp
        exact pair_ne_of_not_linked h line l hl (hpq.trans (List.mem_singleton.mp hq))
      · intro d i hi
        rw [entityCount_link] at hi
        rw [degree_link h line d hi, neighbours_link h line d i, hg.degree_eq d i hi]
        by_cases htail : Link.tail d ⟨s, t, line⟩ = i <;> simp [htail]

end Graph

end CallAtlas
