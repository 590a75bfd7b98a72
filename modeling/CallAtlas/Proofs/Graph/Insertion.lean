import CallAtlas.Proofs.Graph.Adjacency

/-!
# Runs of insertions

A graph starts from a catalog, without links, and grows by inserting edges. An
insertion may repeat a pair, link an entity to itself or name an unknown id.
`insertEdge` looks both ids up before it changes anything, so a failure leaves
nothing behind; a pair that is linked keeps its link; and a new pair adds exactly
one edge. The two facts about one insertion are what it answers and does (`InsertsExactly`) and
that it keeps the invariant (`WellFormed.tryInsert`); the second one lifts to whole
runs, so after any entities and any insertions the views of the graph agree.
-/

namespace CallAtlas.Graph

/-! ### One insertion -/

theorem insertEdge_of_some {g : Graph} {s t : String} {i j : Nat} (hs : g.indexOf? s = some i)
    (ht : g.indexOf? t = some j) (line : Nat) :
    g.insertEdge s t line = .ok (g.link i j line, !g.linked i j) := by
  unfold insertEdge
  rw [locate_of_some hs, locate_of_some ht]
  rfl

theorem insertEdge_of_unknown_source {g : Graph} {s t : String} (hs : ¬ g.contains s = true)
    (line : Nat) : g.insertEdge s t line = .error (.entityNotFound s) := by
  unfold insertEdge
  rw [locate_of_not_contains hs]
  rfl

theorem insertEdge_of_unknown_target {g : Graph} {s t : String} (hs : g.contains s = true)
    (ht : ¬ g.contains t = true) (line : Nat) :
    g.insertEdge s t line = .error (.entityNotFound t) := by
  obtain ⟨i, hi⟩ := contains_iff.mp hs
  unfold insertEdge
  rw [locate_of_some hi, locate_of_not_contains ht]
  rfl

/-- An insertion fails on the first unknown end, or links the positions of both
ends. -/
theorem insertEdge_cases (g : Graph) (s t : String) (line : Nat) :
    (¬ g.contains s = true ∧ g.insertEdge s t line = .error (.entityNotFound s)) ∨
    (g.contains s = true ∧ ¬ g.contains t = true ∧
      g.insertEdge s t line = .error (.entityNotFound t)) ∨
    ∃ i j, g.indexOf? s = some i ∧ g.indexOf? t = some j ∧
      g.insertEdge s t line = .ok (g.link i j line, !g.linked i j) := by
  by_cases hs : g.contains s = true
  · by_cases ht : g.contains t = true
    · obtain ⟨i, hi⟩ := contains_iff.mp hs
      obtain ⟨j, hj⟩ := contains_iff.mp ht
      exact Or.inr (Or.inr ⟨i, j, hi, hj, insertEdge_of_some hi hj line⟩)
    · exact Or.inr (Or.inl ⟨hs, ht, insertEdge_of_unknown_target hs ht line⟩)
  · exact Or.inl ⟨hs, insertEdge_of_unknown_source hs line⟩

/-- Where entities differ in their degrees only, so do the nodes. -/
theorem unlinked_node_congr {g g' : Graph}
    (h : g'.entities.map Entity.unlinked = g.entities.map Entity.unlinked) (k : Nat) :
    (g'.node k).unlinked = (g.node k).unlinked := by
  have hk := congrArg (fun es : Array Entity => es[k]?) h
  simp only [Array.getElem?_map] at hk
  unfold node
  cases hg : g.entities[k]? with
  | none =>
      rw [hg, Option.map_none, Option.map_eq_none_iff] at hk
      rw [hk]
  | some e =>
      rw [hg, Option.map_some, Option.map_eq_some_iff] at hk
      obtain ⟨e', he', heq⟩ := hk
      rw [he', Option.getD_some, Option.getD_some, heq]

/-- Linking does not change what edge another link stands for. -/
theorem edgeOf_link (g : Graph) (s t line : Nat) (l : Link) :
    (g.link s t line).edgeOf l = g.edgeOf l := by
  have hid : ∀ k, ((g.link s t line).node k).id = (g.node k).id := by
    intro k
    have hk := congrArg Entity.id (unlinked_node_congr (unlinked_link g s t line) k)
    exact hk
  unfold edgeOf
  rw [hid, hid]

/-- In the order they were made, a new link comes last, and the edges of the others
stay. -/
theorem map_edgeOf_link {g : Graph} {i j : Nat} (h : g.linked i j = false) (line : Nat) :
    (g.link i j line).links.toList.map (g.link i j line).edgeOf =
      g.links.toList.map g.edgeOf ++ [g.edgeOf ⟨i, j, line⟩] := by
  rw [toList_links_link, pushNew_of_forall_ne (pair_ne_of_not_linked h line), List.map_append,
    List.map_singleton, edgeOf_link, List.map_congr_left fun l _ => edgeOf_link g i j line l]

/-- A new link adds exactly its own edge. -/
theorem edges_link {g : Graph} {i j : Nat} (h : g.linked i j = false) (line : Nat) :
    (g.link i j line).edges.Perm (g.edgeOf ⟨i, j, line⟩ :: g.edges) := by
  calc (g.link i j line).edges
      |>.Perm (g.links.toList.map g.edgeOf ++ [g.edgeOf ⟨i, j, line⟩]) :=
        map_edgeOf_link h line ▸ edges_perm _
    _ |>.Perm (g.edgeOf ⟨i, j, line⟩ :: g.links.toList.map g.edgeOf) :=
        List.perm_append_singleton _ _
    _ |>.Perm (g.edgeOf ⟨i, j, line⟩ :: g.edges) := (edges_perm g).symm.cons _

/-- The graph after an insertion was tried; a failed one leaves the graph as it
was. -/
def tryInsert (g : Graph) (e : Edge) : Graph :=
  match g.insertEdge e.source e.target e.line with
  | .ok (g', _) => g'
  | .error _ => g

/-- What one insertion answers and does. -/
structure InsertsExactly (g : Graph) (s t : String) (line : Nat) : Prop where
  /-- It fails exactly on an unknown end, and names the first one. -/
  error_iff : ∀ failure, g.insertEdge s t line = .error failure ↔
    (¬ g.contains s = true ∧ failure = .entityNotFound s) ∨
      (g.contains s = true ∧ ¬ g.contains t = true ∧ failure = .entityNotFound t)
  /-- A failure changes nothing. -/
  unchanged_of_error : ∀ failure, g.insertEdge s t line = .error failure →
    g.tryInsert ⟨s, t, line⟩ = g
  /-- A pair that is there keeps its edge, line included. -/
  present_iff : ∀ g', g.insertEdge s t line = .ok (g', false) ↔ g.hasEdge s t = true ∧ g' = g
  new_iff : (∃ g', g.insertEdge s t line = .ok (g', true)) ↔
    g.contains s = true ∧ g.contains t = true ∧ ¬ g.hasEdge s t = true
  /-- A new pair adds exactly one edge. -/
  edges_of_new : ∀ g', g.insertEdge s t line = .ok (g', true) →
    g'.edges.Perm (⟨s, t, line⟩ :: g.edges) ∧
      g'.entities.map Entity.unlinked = g.entities.map Entity.unlinked

theorem hasEdge_of_some {g : Graph} {s t : String} {i j : Nat} (hs : g.indexOf? s = some i)
    (ht : g.indexOf? t = some j) : g.hasEdge s t = g.linked i j := by
  unfold hasEdge
  rw [hs, ht]

/-- Positions are linked exactly when there is an edge between their ids. -/
theorem WellFormed.linked_iff_hasEdge {g : Graph} (hg : g.WellFormed) {i j : Nat} :
    g.linked i j = true ↔
      i < g.entityCount ∧ j < g.entityCount ∧ g.hasEdge (g.node i).id (g.node j).id = true := by
  constructor
  · intro h
    obtain ⟨hi, hj⟩ := hg.step_lt (d := .downstream) h
    exact ⟨hi, hj, (hasEdge_of_some (hg.indexOf?_node hi) (hg.indexOf?_node hj)).trans h⟩
  · intro h
    obtain ⟨hi, hj, h⟩ := h
    exact (hasEdge_of_some (hg.indexOf?_node hi) (hg.indexOf?_node hj)).symm.trans h

/-- Only known ids have edges. -/
theorem contains_of_hasEdge {g : Graph} {s t : String} (h : g.hasEdge s t = true) :
    g.contains s = true ∧ g.contains t = true := by
  obtain ⟨i, j, hi, hj, _⟩ := hasEdge_iff.mp h
  exact ⟨contains_iff.mpr ⟨i, hi⟩, contains_iff.mpr ⟨j, hj⟩⟩

theorem WellFormed.insertsExactly {g : Graph} (hg : g.WellFormed) (s t : String) (line : Nat) :
    g.InsertsExactly s t line := by
  rcases insertEdge_cases g s t line with ⟨hs, h⟩ | ⟨hs, ht, h⟩ | ⟨i, j, hi, hj, h⟩
  · -- The caller is unknown.
    have hno : ¬ g.hasEdge s t = true := fun he => hs (contains_of_hasEdge he).1
    exact
      { error_iff := fun f => by simp [h, hs, @eq_comm _ f]
        unchanged_of_error := by simp [tryInsert, h]
        present_iff := by simp [h, hno]
        new_iff := by simp [h, hs]
        edges_of_new := by simp [h] }
  · -- The callee is unknown.
    have hno : ¬ g.hasEdge s t = true := fun he => ht (contains_of_hasEdge he).2
    exact
      { error_iff := fun f => by simp [h, hs, ht, @eq_comm _ f]
        unchanged_of_error := by simp [tryInsert, h]
        present_iff := by simp [h, hno]
        new_iff := by simp [h, ht]
        edges_of_new := by simp [h] }
  · -- Both are known, and everything depends on whether they are linked.
    have hs : g.contains s = true := contains_iff.mpr ⟨i, hi⟩
    have ht : g.contains t = true := contains_iff.mpr ⟨j, hj⟩
    have hids : (g.node i).id = s ∧ (g.node j).id = t :=
      ⟨(hg.indexOf?_eq_some.mp hi).2, (hg.indexOf?_eq_some.mp hj).2⟩
    cases hl : g.linked i j with
    | true =>
        have hyes : g.hasEdge s t = true := (hasEdge_of_some hi hj).trans hl
        rw [link_of_linked hl, hl, Bool.not_true] at h
        exact
          { error_iff := by simp [h, hs, ht]
            unchanged_of_error := by simp [h]
            present_iff := fun g' => by simp [h, hyes, @eq_comm _ g']
            new_iff := by simp [h, hyes]
            edges_of_new := by simp [h] }
    | false =>
        have hno : ¬ g.hasEdge s t = true := by rw [hasEdge_of_some hi hj, hl]; simp
        rw [hl, Bool.not_false] at h
        refine
          { error_iff := by simp [h, hs, ht]
            unchanged_of_error := by simp [h]
            present_iff := by simp [h, hno]
            new_iff := by simp [h, hs, ht, hno]
            edges_of_new := ?_ }
        intro g' hg'
        rw [h] at hg'
        cases hg'
        refine ⟨?_, unlinked_link g i j line⟩
        have hperm := edges_link hl line
        unfold edgeOf at hperm
        rwa [hids.1, hids.2] at hperm

theorem WellFormed.tryInsert {g : Graph} (hg : g.WellFormed) (e : Edge) :
    (g.tryInsert e).WellFormed := by
  unfold Graph.tryInsert
  rcases insertEdge_cases g e.source e.target e.line with ⟨_, h⟩ | ⟨_, _, h⟩ | ⟨i, j, hi, hj, h⟩
  · rw [h]
    exact hg
  · rw [h]
    exact hg
  · rw [h]
    exact hg.link (hg.indexOf?_eq_some.mp hi).1 (hg.indexOf?_eq_some.mp hj).1 e.line

theorem unlinked_tryInsert (g : Graph) (e : Edge) :
    (g.tryInsert e).entities.map Entity.unlinked = g.entities.map Entity.unlinked := by
  unfold tryInsert
  rcases insertEdge_cases g e.source e.target e.line with ⟨_, h⟩ | ⟨_, _, h⟩ | ⟨i, j, _, _, h⟩
  · rw [h]
  · rw [h]
  · rw [h]
    exact unlinked_link g i j e.line

/-! ### Runs -/

/-- The graph after trying insertions one after the other. -/
def insertEdges (g : Graph) (es : List Edge) : Graph := es.foldl tryInsert g

theorem WellFormed.insertEdges {g : Graph} (hg : g.WellFormed) (es : List Edge) :
    (g.insertEdges es).WellFormed := by
  unfold Graph.insertEdges
  induction es generalizing g with
  | nil => exact hg
  | cons e es ih => exact ih (hg.tryInsert e)

theorem unlinked_insertEdges (g : Graph) (es : List Edge) :
    (g.insertEdges es).entities.map Entity.unlinked = g.entities.map Entity.unlinked := by
  unfold insertEdges
  induction es generalizing g with
  | nil => rfl
  | cons e es ih => exact (ih (g.tryInsert e)).trans (unlinked_tryInsert g e)

/-- The graph of some entities, offered one after the other, and of some
insertions, tried one after the other. -/
def ofInsertions (entities : List Entity) (insertions : List Edge) : Graph :=
  (ofCatalog (.ofList entities)).insertEdges insertions

/-- Four functions that call each other in a circle; the second one also calls
itself, and the first one the last. -/
def ring : Graph :=
  let entity (name : String) : Entity := .make name "m.js" "." .declaration 1 1 []
  ofInsertions (["a", "b", "c", "d"].map entity)
    [⟨"m.js:a:1", "m.js:d:1", 1⟩, ⟨"m.js:a:1", "m.js:b:1", 2⟩, ⟨"m.js:b:1", "m.js:b:1", 3⟩,
      ⟨"m.js:b:1", "m.js:c:1", 4⟩, ⟨"m.js:c:1", "m.js:d:1", 5⟩, ⟨"m.js:d:1", "m.js:a:1", 6⟩]

theorem wellFormed_ofInsertions (entities : List Entity) (insertions : List Edge) :
    (ofInsertions entities insertions).WellFormed :=
  (wellFormed_ofCatalog (Catalog.distinctIds_ofList entities)).insertEdges insertions

/-- Degrees aside, the entities of a graph are the first ones offered of every
id. -/
theorem unlinked_ofInsertions (entities : List Entity) (insertions : List Edge) :
    (ofInsertions entities insertions).entities.toList.map Entity.unlinked =
      (firstByKey Entity.id entities).map Entity.unlinked := by
  have hidem : Entity.unlinked ∘ Entity.unlinked = Entity.unlinked := rfl
  have h := unlinked_insertEdges (ofCatalog (.ofList entities)) insertions
  unfold ofInsertions
  rw [← Array.toList_map, h, entities_ofCatalog, Array.map_map, hidem, Array.toList_map,
    Catalog.toList_ofList]

theorem map_unlinked_filter_name {es es' : List Entity} (name : String)
    (h : es.map Entity.unlinked = es'.map Entity.unlinked) :
    (es.filter (·.name == name)).map Entity.unlinked =
      (es'.filter (·.name == name)).map Entity.unlinked := by
  have hname : (fun e : Entity => e.name == name) = (·.name == name) ∘ Entity.unlinked := rfl
  rw [hname, ← List.filter_map, ← List.filter_map, h]

/-- **The graph's views agree after every run.** Whatever entities are offered and
whatever insertions are tried, in whatever order, the answers about the graph fit
together, the entities are the first ones of every id in the order offered, and the
next insertion does exactly what its answer says. -/
theorem ofInsertions_coherent (entities : List Entity) (insertions : List Edge) :
    (ofInsertions entities insertions).Coherent ∧
      (∀ name, ((ofInsertions entities insertions).named name).map Entity.unlinked =
        ((firstByKey Entity.id entities).filter (·.name == name)).map Entity.unlinked) ∧
      ∀ s t line, (ofInsertions entities insertions).InsertsExactly s t line := by
  have hg := wellFormed_ofInsertions entities insertions
  refine ⟨hg.coherent, ?_, hg.insertsExactly⟩
  intro name
  rw [named_eq_filter]
  exact map_unlinked_filter_name name (unlinked_ofInsertions entities insertions)

end CallAtlas.Graph
