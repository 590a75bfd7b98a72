import Mathlib.Data.List.Basic
import Mathlib.Order.Defs.LinearOrder
import CallAtlas.Script.Function

/-!
# Places in a tree

The walk carries what it knows downwards: the name that the surroundings give a
function, and the innermost named function around. A **place** is a node together
with the places above it, so the same two things can be read upwards, from a node
to its surroundings, without any walk.

**The walk lists the places.** `walk_eq` says that the walk of a tree is the list
of its places, each with what is read upwards from it. The list holds every place
of the tree (`mem_places`), in **document order**: by their paths from the root, a
node before its parts (`places_pairwise_path`). Where the lines of a tree fit its
shape, document order is the order of the lines (`WellPlaced.places_pairwise_line`).
-/

namespace CallAtlas.Script

/-- What holds of a node as soon as it holds of its parts holds of every node. -/
theorem Node.inductOnParts {P : Node → Prop}
    (step : ∀ n : Node, (∀ c ∈ n.children, P c) → P n) (n : Node) : P n := by
  refine @Node.rec P (fun cs => ∀ c ∈ cs, P c) ?_ ?_ ?_ n
  · intro kind role text startLine endLine children ih
    exact step (.mk kind role text startLine endLine children) ih
  · intro c hc
    cases hc
  · intro c cs hc hcs d hd
    rcases List.mem_cons.mp hd with rfl | hd
    · exact hc
    · exact hcs d hd

/-- Only functions have an identity. -/
theorem Node.isFunctionLike_of_identity? {n : Node} {binding : Option String}
    {identity : Identity} (h : n.identity? binding = some identity) :
    n.kind.isFunctionLike = true := by
  unfold identity? at h
  split at h
  · rename_i hform
    unfold namedForm? at hform
    split at hform
    all_goals first | (rename_i hkind; rw [hkind]; rfl) | cases hform
  · cases h

/-! ### Places -/

/-- A node of a tree, with everything above it. -/
inductive Place where
  | root (tree : Node)
  /-- The part at a position of the node at another place. -/
  | part (whole : Place) (index : Nat) (node : Node)

namespace Place

/-- The node at a place. -/
def node : Place → Node
  | root tree => tree
  | part _ _ n => n

/-- The way from the root to a place. -/
def path : Place → List Nat
  | root _ => []
  | part p i _ => p.path ++ [i]

/-- The name that the surroundings give a function at a place. -/
def binding : Place → Option String
  | root _ => none
  | part p i _ => p.node.bindingAt p.binding i

/-- The identity of the function at a place. -/
def identity? (p : Place) : Option Identity := p.node.identity? p.binding

/-- The identity of the innermost function above a place that has one. -/
def enclosing? : Place → Option Identity
  | root _ => none
  | part p _ _ =>
      if p.node.kind.isFunctionLike then p.identity?.or p.enclosing? else p.enclosing?

/-- The place as the walk meets it. -/
def visit (p : Place) : Visit := ⟨p.node, p.binding, p.enclosing?⟩

/-- The first place is the second one or above it. -/
inductive Covers (p : Place) : Place → Prop
  | refl : Covers p p
  | part {q : Place} {i : Nat} {n : Node} :
      Covers p q → q.node.children[i]? = some n → Covers p (.part q i n)

theorem enclosing?_part (p : Place) (i : Nat) (n : Node) :
    (part p i n).enclosing? = p.identity?.or p.enclosing? := by
  rw [enclosing?]
  split
  · rfl
  · rename_i hkind
    cases h : p.identity? with
    | none => rfl
    | some identity => exact absurd (Node.isFunctionLike_of_identity? h) hkind

theorem Covers.trans {p q r : Place} (hpq : p.Covers q) (hqr : q.Covers r) : p.Covers r := by
  induction hqr with
  | refl => exact hpq
  | part _ hn ih => exact .part ih hn

end Place

/-! ### Listing places -/

mutual

/-- The places at and below `p`, whose node is the one given, in document order. -/
def placesFrom (p : Place) : Node → List Place
  | .mk _ _ _ _ _ children => p :: placesOfParts p 0 children

/-- The same for the parts of `p` from position `index` on. -/
def placesOfParts (p : Place) (index : Nat) : List Node → List Place
  | [] => []
  | n :: parts => placesFrom (.part p index n) n ++ placesOfParts p (index + 1) parts

end

/-- The places at and below a place, in document order. -/
def Place.places (p : Place) : List Place := placesFrom p p.node

theorem placesOfParts_eq (p : Place) (index : Nat) (parts : List Node) :
    placesOfParts p index parts =
      (parts.zipIdx index).flatMap fun x => (Place.part p x.2 x.1).places := by
  induction parts generalizing index with
  | nil => rfl
  | cons n parts ih =>
      rw [placesOfParts, ih, List.zipIdx_cons, List.flatMap_cons]
      rfl

theorem visitsOfParts_eq (parent : Node) (inherited : Option String)
    (enclosing : Option Identity) (index : Nat) (parts : List Node) :
    visitsOfParts parent inherited enclosing index parts =
      (parts.zipIdx index).flatMap fun x =>
        visits (parent.bindingAt inherited x.2) enclosing x.1 := by
  induction parts generalizing index with
  | nil => rfl
  | cons n parts ih => rw [visitsOfParts, ih, List.zipIdx_cons, List.flatMap_cons]

/-- A place comes before those below it, and these come part by part. -/
theorem Place.places_eq (p : Place) :
    p.places = p :: p.node.children.zipIdx.flatMap fun x => (part p x.2 x.1).places := by
  unfold places
  cases hn : p.node with
  | mk kind role text startLine endLine children =>
      rw [placesFrom, placesOfParts_eq]
      rfl

theorem visits_eq (binding : Option String) (enclosing : Option Identity) (n : Node) :
    visits binding enclosing n = ⟨n, binding, enclosing⟩ :: n.children.zipIdx.flatMap fun x =>
      visits (n.bindingAt binding x.2) ((n.identity? binding).or enclosing) x.1 := by
  cases n with
  | mk kind role text startLine endLine children =>
      rw [visits, visitsOfParts_eq]
      rfl

namespace Place

/-- To prove something of every place, prove it where it holds of the places one
step below. -/
theorem inductBelow {P : Place → Prop}
    (step : ∀ p : Place, (∀ i n, p.node.children[i]? = some n → P (part p i n)) → P p)
    (p : Place) : P p := by
  -- The induction is on the node: the place above it does not get smaller.
  suffices h : ∀ n (p : Place), p.node = n → P p from h p.node p rfl
  intro n
  induction n using Node.inductOnParts with
  | step n ih =>
      rintro p rfl
      refine step p fun i c hc => ?_
      exact ih c (List.mem_of_getElem? hc) (part p i c) rfl

theorem visits_eq_map_places (p : Place) :
    visits p.binding p.enclosing? p.node = p.places.map visit := by
  induction p using inductBelow with
  | step p ih =>
      rw [visits_eq, places_eq, List.map_cons, List.map_flatMap]
      congr 1
      apply List.flatMap_congr
      intro x hx
      rw [← ih x.2 x.1 (List.mem_zipIdx_iff_getElem?.mp hx), enclosing?_part]
      rfl

theorem mem_places_iff {p q : Place} :
    q ∈ p.places ↔
      q = p ∨ ∃ i n, p.node.children[i]? = some n ∧ q ∈ (part p i n).places := by
  rw [places_eq, List.mem_cons, List.mem_flatMap]
  constructor
  · rintro (rfl | ⟨x, hx, hq⟩)
    · exact Or.inl rfl
    · exact Or.inr ⟨x.2, x.1, List.mem_zipIdx_iff_getElem?.mp hx, hq⟩
  · rintro (rfl | ⟨i, n, hn, hq⟩)
    · exact Or.inl rfl
    · exact Or.inr ⟨(n, i), List.mem_zipIdx_iff_getElem?.mpr hn, hq⟩

/-- The parts of a listed place are listed. -/
theorem part_mem_places {p q : Place} (hq : q ∈ p.places) {i : Nat} {n : Node}
    (hn : q.node.children[i]? = some n) : part q i n ∈ p.places := by
  induction p using inductBelow with
  | step p ih =>
      rcases mem_places_iff.mp hq with rfl | ⟨j, m, hm, hq⟩
      · exact mem_places_iff.mpr (Or.inr ⟨i, n, hn, mem_places_iff.mpr (Or.inl rfl)⟩)
      · exact mem_places_iff.mpr (Or.inr ⟨j, m, hm, ih j m hm hq⟩)

/-- **Every place is listed**: those at and below `p` are those that `p` covers. -/
theorem mem_places {p q : Place} : q ∈ p.places ↔ p.Covers q := by
  constructor
  · intro hq
    induction p using inductBelow with
    | step p ih =>
        rcases mem_places_iff.mp hq with rfl | ⟨i, n, hn, hq⟩
        · exact .refl
        · exact (Covers.refl.part hn).trans (ih i n hn hq)
  · intro h
    induction h with
    | refl => exact mem_places_iff.mpr (Or.inl rfl)
    | part _ hn ih => exact part_mem_places ih hn

end Place

/-- **The walk lists the places of a tree**, each with what is read upwards from
it. -/
theorem walk_eq (tree : Node) : walk tree = (Place.root tree).places.map Place.visit :=
  Place.visits_eq_map_places (.root tree)

/-! ### Document order -/

theorem pairwise_zipIdx {α : Type} (as : List α) :
    as.zipIdx.Pairwise fun x y => x.2 < y.2 := by
  have h : (as.zipIdx.map Prod.snd).Pairwise (· < ·) := by
    rw [List.zipIdx_map_snd]
    exact List.pairwise_lt_range'
  exact List.pairwise_map.mp h

namespace Place

/-- A relation orders the places at and below `p` if it orders every place before
those below it, and what a part covers before what a later part of the same node
covers. -/
theorem pairwise_places {R : Place → Place → Prop} (p : Place)
    (below : ∀ q i n r, p.Covers q → q.node.children[i]? = some n → (part q i n).Covers r → R q r)
    (across : ∀ q i m j n r s, p.Covers q → q.node.children[i]? = some m →
      q.node.children[j]? = some n → i < j → (part q i m).Covers r → (part q j n).Covers s →
      R r s) : p.places.Pairwise R := by
  induction p using inductBelow with
  | step p ih =>
      rw [places_eq, List.pairwise_cons, List.pairwise_flatMap]
      refine ⟨?_, ?_, ?_⟩
      · intro r hr
        obtain ⟨x, hx, hr⟩ := List.mem_flatMap.mp hr
        exact below p x.2 x.1 r .refl (List.mem_zipIdx_iff_getElem?.mp hx) (mem_places.mp hr)
      · intro x hx
        have hpart : p.Covers (part p x.2 x.1) :=
          Covers.refl.part (List.mem_zipIdx_iff_getElem?.mp hx)
        refine ih x.2 x.1 (List.mem_zipIdx_iff_getElem?.mp hx) ?_ ?_
        · intro q i n r hq
          exact below q i n r (hpart.trans hq)
        · intro q i m j n r s hq
          exact across q i m j n r s (hpart.trans hq)
      · refine (pairwise_zipIdx p.node.children).imp_of_mem ?_
        intro x y hx hy hlt r hr s hs
        exact across p x.2 x.1 y.2 y.1 r s .refl (List.mem_zipIdx_iff_getElem?.mp hx)
          (List.mem_zipIdx_iff_getElem?.mp hy) hlt (mem_places.mp hr) (mem_places.mp hs)

/-- The way to a place leads through the places above it. -/
theorem Covers.path_eq_append {p q : Place} (h : p.Covers q) : ∃ rest, q.path = p.path ++ rest := by
  induction h with
  | refl => exact ⟨[], (List.append_nil _).symm⟩
  | @part q i n _ _ ih =>
      obtain ⟨rest, h⟩ := ih
      exact ⟨rest ++ [i], by rw [path, h, List.append_assoc]⟩

theorem path_of_covers_part {q r : Place} {i : Nat} {n : Node} (h : (part q i n).Covers r) :
    ∃ rest, r.path = q.path ++ i :: rest := by
  obtain ⟨rest, hr⟩ := h.path_eq_append
  exact ⟨rest, by rw [hr, path, List.append_assoc, List.singleton_append]⟩

/-- Places are listed in document order. -/
theorem places_pairwise_path (p : Place) :
    p.places.Pairwise fun q r => q.path < r.path := by
  refine pairwise_places p ?_ ?_
  · intro q i n r _ _ hr
    obtain ⟨rest, hr⟩ := path_of_covers_part hr
    have hlt : q.path ++ [] < q.path ++ i :: rest := List.append_left_lt (List.nil_lt_cons i rest)
    rwa [List.append_nil, ← hr] at hlt
  · intro q i m j n r s _ _ _ hij hr hs
    obtain ⟨rest, hr⟩ := path_of_covers_part hr
    obtain ⟨rest', hs⟩ := path_of_covers_part hs
    rw [hr, hs]
    exact List.append_left_lt (List.cons_lt_cons_iff.mpr (Or.inl hij))

end Place

/-! ### Lines -/

/-- The lines of a tree fit its shape. -/
structure Node.WellPlaced (tree : Node) : Prop where
  /-- A part starts no earlier than its whole. -/
  part_le : ∀ (q : Place) (i : Nat) (n : Node), (Place.root tree).Covers q →
    q.node.children[i]? = some n → q.node.startLine ≤ n.startLine
  /-- Siblings are in order: nothing of one starts after a later one does. -/
  sibling_le : ∀ (q : Place) (i : Nat) (m : Node) (j : Nat) (n : Node) (r : Place),
    (Place.root tree).Covers q → q.node.children[i]? = some m → q.node.children[j]? = some n →
    i < j → (Place.part q i m).Covers r → r.node.startLine ≤ n.startLine

namespace Node.WellPlaced

variable {tree : Node}

/-- Nothing starts before a place above it does. -/
theorem startLine_le_of_covers (h : tree.WellPlaced) {p q : Place}
    (hp : (Place.root tree).Covers p) (hpq : p.Covers q) :
    p.node.startLine ≤ q.node.startLine := by
  induction hpq with
  | refl => exact Nat.le_refl _
  | part hq hn ih => exact Nat.le_trans ih (h.part_le _ _ _ (hp.trans hq) hn)

/-- In document order lines do not decrease. -/
theorem places_pairwise_line (h : tree.WellPlaced) :
    (Place.root tree).places.Pairwise fun p q => p.node.startLine ≤ q.node.startLine := by
  refine Place.pairwise_places _ ?_ ?_
  · intro q i n r hq hn hr
    exact h.startLine_le_of_covers hq ((Place.Covers.refl.part hn).trans hr)
  · intro q i m j n r s hq hm hn hij hr hs
    exact Nat.le_trans (h.sibling_le q i m j n r hq hm hn hij hr)
      (h.startLine_le_of_covers (hq.part hn) hs)

/-- What comes later in the document starts no earlier. -/
theorem startLine_le_of_path_lt (h : tree.WellPlaced) {p q : Place}
    (hp : (Place.root tree).Covers p) (hq : (Place.root tree).Covers q) (hlt : p.path < q.path) :
    p.node.startLine ≤ q.node.startLine := by
  -- Of two listed places, the one that stands first has the smaller path.
  have hforward : (Place.root tree).places.Pairwise fun a b =>
      a.path < b.path → a.node.startLine ≤ b.node.startLine := by
    refine h.places_pairwise_line.imp ?_
    intro a b hab _
    exact hab
  have hbackward : (Place.root tree).places.Pairwise fun a b =>
      b.path < a.path → b.node.startLine ≤ a.node.startLine := by
    refine (Place.places_pairwise_path (.root tree)).imp ?_
    intro a b hab hba
    exact absurd hba (List.lt_asymm hab)
  refine hforward.forall_of_forall_of_flip ?_ hbackward (Place.mem_places.mpr hp)
    (Place.mem_places.mpr hq) hlt
  intro a _ haa
  exact absurd haa (List.lt_irrefl _)

end Node.WellPlaced

mutual

/-- The node spans its parts, which follow one another, and so on below. -/
def Node.Nested : Node → Prop
  | .mk _ _ _ startLine endLine children =>
      startLine ≤ endLine ∧ NestedBetween startLine endLine children

/-- Nodes that follow one another between two lines. -/
def NestedBetween (first last : Nat) : List Node → Prop
  | [] => True
  | n :: ns =>
      first ≤ n.startLine ∧ n.endLine ≤ last ∧ n.Nested ∧ NestedBetween n.endLine last ns

end

theorem Node.Nested.iff {n : Node} :
    n.Nested ↔ n.startLine ≤ n.endLine ∧ NestedBetween n.startLine n.endLine n.children := by
  cases n with
  | mk kind role text startLine endLine children => rw [Node.Nested]; rfl

theorem NestedBetween.spec {first last : Nat} {ns : List Node} (h : NestedBetween first last ns) :
    (∀ n ∈ ns, first ≤ n.startLine ∧ n.endLine ≤ last ∧ n.Nested) ∧
      ns.Pairwise fun m n => m.endLine ≤ n.startLine := by
  induction ns generalizing first with
  | nil => exact ⟨fun n hn => absurd hn List.not_mem_nil, List.Pairwise.nil⟩
  | cons n ns ih =>
      rw [NestedBetween] at h
      obtain ⟨hfirst, hlast, hn, hrest⟩ := h
      obtain ⟨hall, hpairwise⟩ := ih hrest
      have hspan := (Node.Nested.iff.mp hn).1
      refine ⟨?_, List.pairwise_cons.mpr ⟨fun m hm => (hall m hm).1, hpairwise⟩⟩
      intro m hm
      rcases List.mem_cons.mp hm with rfl | hm
      · exact ⟨hfirst, hlast, hn⟩
      · obtain ⟨hstart, hend, hm⟩ := hall m hm
        exact ⟨by omega, hend, hm⟩

theorem Node.Nested.of_covers {p q : Place} (h : p.node.Nested) (hq : p.Covers q) :
    q.node.Nested ∧ q.node.endLine ≤ p.node.endLine := by
  induction hq with
  | refl => exact ⟨h, Nat.le_refl _⟩
  | part _ hn ih =>
      obtain ⟨hq, hend⟩ := ih
      have hpart := (Node.Nested.iff.mp hq).2.spec.1 _ (List.mem_of_getElem? hn)
      exact ⟨hpart.2.2, Nat.le_trans hpart.2.1 hend⟩

/-- Where spans nest and siblings follow one another, the lines fit the shape. -/
theorem Node.Nested.wellPlaced {tree : Node} (h : tree.Nested) : tree.WellPlaced where
  part_le := by
    intro q i n hq hn
    have hspec := (Node.Nested.iff.mp (Node.Nested.of_covers (p := .root tree) h hq).1).2.spec
    exact (hspec.1 n (List.mem_of_getElem? hn)).1
  sibling_le := by
    intro q i m j n r hq hm hn hij hr
    have hspec := (Node.Nested.iff.mp (Node.Nested.of_covers (p := .root tree) h hq).1).2.spec
    obtain ⟨hr, hend⟩ := Node.Nested.of_covers (p := .part q i m)
      (hspec.1 m (List.mem_of_getElem? hm)).2.2 hr
    have hspan := (Node.Nested.iff.mp hr).1
    have hnext : m.endLine ≤ n.startLine := by
      obtain ⟨hi, rfl⟩ := List.getElem?_eq_some_iff.mp hm
      obtain ⟨hj, rfl⟩ := List.getElem?_eq_some_iff.mp hn
      exact List.pairwise_iff_getElem.mp hspec.2 i j hi hj hij
    exact Nat.le_trans hspan (Nat.le_trans hend hnext)

end CallAtlas.Script
