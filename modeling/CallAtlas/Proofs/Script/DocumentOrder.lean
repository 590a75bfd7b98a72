import CallAtlas.Proofs.Graph.Containment

/-!
# Entities and calls are found in document order

A file is swept twice, once for its entities and once for its calls. Both sweeps meet the
places of its tree in preorder, so what they find can be set beside the places where it is
found: one entity for every function with an identity, one call site for every call whose
callee has a name, and one more on the count for every other call.

Where the lines of the tree fit its shape, preorder is the order of the lines, and so the
entities and the call sites of a file come line by line.
-/

namespace CallAtlas.Script

theorem Node.startLine_of_identity? {n : Node} {binding : Option String} {identity : Identity}
    (h : n.identity? binding = some identity) : identity.startLine = n.startLine := by
  unfold identity? at h
  split at h
  · split at h
    · cases h
    · cases h
      rfl
  · cases h

namespace ParsedFile

/-- The entity of a function at some place of a file. -/
structure EntityAt (file : ParsedFile) (e : Entity) (p : Place) : Prop where
  covers : (Place.root file.tree).Covers p
  isFunctionLike : p.node.kind.isFunctionLike = true
  /-- Name and kind are those of the function's identity, the lines those of its node. -/
  made : ∃ identity, p.identity? = some identity ∧
    e = .make identity.name file.path file.group identity.kind p.node.startLine p.node.endLine
      p.node.parameterTexts

theorem isSome_entityAt? (file : ParsedFile) (p : Place) :
    (file.entityAt? p.visit).isSome = p.isNamed := by
  unfold entityAt? Place.isNamed
  by_cases hkind : p.node.kind.isFunctionLike <;> simp [Place.visit, hkind]
  rfl

theorem entityAt_of_entityAt? {file : ParsedFile} {p : Place} {e : Entity}
    (hp : (Place.root file.tree).Covers p) (h : file.entityAt? p.visit = some e) :
    file.EntityAt e p := by
  unfold entityAt? at h
  split at h
  · rename_i hkind
    obtain ⟨identity, hid, rfl⟩ := Option.map_eq_some_iff.mp h
    refine ⟨hp, hkind, identity, hid, ?_⟩
    rw [Node.startLine_of_identity? hid]
    rfl
  · cases h

/-- The entities of a file are those of its functions with an identity, one after the
other. -/
theorem forall₂_entityAt (file : ParsedFile) :
    List.Forall₂ file.EntityAt file.entities
      ((Place.root file.tree).places.filter Place.isNamed) := by
  rw [entities_eq_filterMap, walk_eq, List.filterMap_map]
  refine forall₂_filterMap (fun p _ => file.isSome_entityAt? p) ?_
  intro p hp e
  exact entityAt_of_entityAt? (Place.mem_places.mp hp)

/-- Every other call is counted. -/
theorem dynamicCalls_eq (file : ParsedFile) :
    file.dynamicCalls = (Place.root file.tree).places.countP fun p =>
      p.node.kind = .callExpression ∧ p.node.callee? = none := by
  rw [dynamicCalls_eq_countP, walk_eq, List.countP_map]
  apply List.countP_congr
  intro p _
  by_cases hkind : p.node.kind = .callExpression <;> simp [isDynamicCall, Place.visit, hkind]

/-- What is found one after the other at some of the places of a well-placed tree, with the
lines of these places, comes line by line. -/
theorem pairwise_line {α : Type} {tree : Node} (htree : tree.WellPlaced) {as : List α}
    {isFound : Place → Bool} {line : α → Nat}
    (h : List.Forall₂ (fun a p => line a = p.node.startLine) as
      ((Place.root tree).places.filter isFound)) :
    (as.map line).Pairwise (· ≤ ·) := by
  have hlines : as.map line =
      ((Place.root tree).places.filter isFound).map fun p => p.node.startLine := by
    rw [← List.forall₂_eq_eq_eq, List.forall₂_map_left_iff, List.forall₂_map_right_iff]
    exact h
  rw [hlines, List.pairwise_map]
  exact htree.places_pairwise_line.filter isFound

/-- **Sweeping is preorder traversal**, for every tree:

* a sweep meets the places of the tree, each once, in document order, and ends by itself:
  more fuel would change nothing;
* one entity is found for every function with an identity, one call site for every call
  whose callee has a name, and all other calls are counted, in the order of the places;
* where the lines of the tree fit its shape, entities and call sites come line by line. -/
theorem found_inDocumentOrder (file : ParsedFile) :
    ((∀ p, p ∈ (Place.root file.tree).places ↔ (Place.root file.tree).Covers p) ∧
      ((Place.root file.tree).places.Pairwise fun p q => p.path < q.path) ∧
      ∀ (σ : Type) (meet : σ → Visit → σ) (s : σ), ∀ fuel ≥ file.tree.size,
        sweep meet fuel #[⟨file.tree, none, none⟩] s =
          ((Place.root file.tree).places.map Place.visit).foldl meet s) ∧
    (List.Forall₂ file.EntityAt file.entities
        ((Place.root file.tree).places.filter Place.isNamed) ∧
      List.Forall₂ file.SiteAt file.callSites
        ((Place.root file.tree).places.filter Place.isNamedCall) ∧
      file.dynamicCalls = (Place.root file.tree).places.countP fun p =>
        p.node.kind = .callExpression ∧ p.node.callee? = none) ∧
    (file.tree.WellPlaced →
      (file.entities.map (·.startLine)).Pairwise (· ≤ ·) ∧
        (file.callSites.map (·.line)).Pairwise (· ≤ ·)) := by
  refine ⟨⟨fun p => Place.mem_places, Place.places_pairwise_path _, ?_⟩,
    ⟨file.forall₂_entityAt, file.forall₂_siteAt, file.dynamicCalls_eq⟩, ?_⟩
  · intro σ meet s fuel hfuel
    rw [← walk_eq]
    exact sweep_tree file.tree meet s hfuel
  · intro htree
    constructor
    · refine pairwise_line htree (file.forall₂_entityAt.imp ?_)
      rintro e p ⟨_, _, _, _, rfl⟩
      rfl
    · exact pairwise_line htree (file.forall₂_siteAt.imp fun _ _ hsite => hsite.line)

/-- The tree has two calls, and the one that comes first stands deeper. -/
theorem found_inDocumentOrder_passedOver :
    Graph.passedOver.tree.WellPlaced ∧ Graph.passedOver.callSites.map (·.line) = [3, 6] ∧
      [3, 6].Pairwise (· ≤ ·) := by
  have htree : Graph.passedOver.tree.WellPlaced := by
    apply Node.Nested.wellPlaced
    simp [Graph.passedOver, Node.Nested, NestedBetween, Node.startLine, Node.endLine]
  have hlines : Graph.passedOver.callSites.map (·.line) = [3, 6] := by decide +kernel
  refine ⟨htree, hlines, ?_⟩
  rw [← hlines]
  exact ((found_inDocumentOrder Graph.passedOver).2.2 htree).2

end ParsedFile

end CallAtlas.Script
