import CallAtlas.Proofs.Script.Place

/-!
# Wrapping does not unbind

A function literal is named by what it is bound to, and parentheses and type annotations
around it do not matter, whatever they are and however many. Here a node is looked at twice:
where it stands in a tree, and where it stands once wrappers have been put around it
(`Place.Wrapped`).

**What may change.** Wrappers are written in the source, so the text of everything above the
node changes with them, and the lines of everything may. What stays is what the surroundings
consist of: the kinds of the nodes above, the roles of their parts, and all parts that do not
lead down to the node, lines aside (`Place.SameSurroundings`).

**Why the name stays.** The node that binds is the nearest one above that is no wrapper. It
looks at the position of its value, which is the same by the roles, and reads the name off
a part in another role, which therefore is one of those that stay
(`Node.AlikeBut.bindingAt_eq`). From the outermost wrapper down to the node the name is only
handed on (`Place.Inside.binding_eq`).
-/

namespace CallAtlas.Script

/-! ### Nodes without their lines -/

mutual

/-- A node without the lines it stands on, and so for its parts. -/
def Node.unplaced : Node → Node
  | .mk kind role text _ _ children => .mk kind role text 0 0 (unplacedParts children)

/-- Some nodes without the lines they stand on. -/
def unplacedParts : List Node → List Node
  | [] => []
  | n :: ns => n.unplaced :: unplacedParts ns

end

namespace Node

@[simp] theorem kind_unplaced (n : Node) : n.unplaced.kind = n.kind := by
  cases n
  rfl

@[simp] theorem role_unplaced (n : Node) : n.unplaced.role = n.role := by
  cases n
  rfl

@[simp] theorem text_unplaced (n : Node) : n.unplaced.text = n.text := by
  cases n
  rfl

theorem unplacedParts_eq (ns : List Node) : unplacedParts ns = ns.map unplaced := by
  induction ns with
  | nil => rfl
  | cons n ns ih => rw [unplacedParts, ih, List.map_cons]

@[simp] theorem children_unplaced (n : Node) : n.unplaced.children = n.children.map unplaced := by
  cases n with
  | mk kind role text startLine endLine children => exact unplacedParts_eq children

@[simp] theorem child?_unplaced (n : Node) (r : Role) :
    n.unplaced.child? r = (n.child? r).map unplaced := by
  have hrole : (fun c : Node => c.role == some r) ∘ unplaced = fun c => c.role == some r := by
    funext c
    simp
  unfold child?
  rw [children_unplaced, List.find?_map, hrole]

/-- What does not look at lines finds the same in two nodes that differ in their lines. -/
theorem bind_eq_of_unplaced {β : Type} {f : Node → Option β} (hf : ∀ n, f n.unplaced = f n)
    {a b : Option Node} (h : a.map unplaced = b.map unplaced) : a.bind f = b.bind f := by
  have hbind : ∀ c : Option Node, (c.map unplaced).bind f = c.bind f := by
    intro c
    cases c with
    | none => rfl
    | some n => exact hf n
  rw [← hbind a, h, hbind b]

/-! ### The same surroundings -/

/-- Two nodes are of one kind and agree in their parts, lines aside, apart from the part at
position `i`, of which only the role is the same. Their own text is left open, since it
covers that part. -/
structure AlikeBut (i : Nat) (a b : Node) : Prop where
  kind : a.kind = b.kind
  roles : a.children.map role = b.children.map role
  parts : ∀ j ≠ i, a.children[j]?.map unplaced = b.children[j]?.map unplaced

theorem childIndex?_eq_findIdx?_roles (n : Node) (r : Role) :
    n.childIndex? r = (n.children.map role).findIdx? (· == some r) := by
  rw [childIndex?, List.findIdx?_map]
  rfl

theorem role_of_childIndex? {n : Node} {r : Role} {i : Nat} (h : n.childIndex? r = some i) :
    n.children[i]?.map role = some (some r) := by
  obtain ⟨hi, hrole, _⟩ := List.findIdx?_eq_some_iff_getElem.mp h
  rw [List.getElem?_eq_getElem hi, Option.map_some, beq_iff_eq.mp hrole]

namespace AlikeBut

variable {i : Nat} {a b : Node}

theorem childIndex?_eq (h : AlikeBut i a b) (r : Role) : a.childIndex? r = b.childIndex? r := by
  rw [childIndex?_eq_findIdx?_roles, childIndex?_eq_findIdx?_roles, h.roles]

/-- If the part at the position in question plays one role, the parts in the others agree. -/
theorem child?_congr (h : AlikeBut i a b) {r s : Role} (hi : a.childIndex? r = some i)
    (hrs : r ≠ s) : (a.child? s).map unplaced = (b.child? s).map unplaced := by
  have hchild : ∀ n : Node, n.child? s = (n.childIndex? s).bind (n.children[·]?) :=
    fun n => List.find?_eq_bind_findIdx?_getElem?
  rw [hchild, hchild, ← h.childIndex?_eq s]
  cases hs : a.childIndex? s with
  | none => rfl
  | some j =>
      apply h.parts
      rintro rfl
      have hrole := (role_of_childIndex? hi).symm.trans (role_of_childIndex? hs)
      exact hrs (Option.some.inj (Option.some.inj hrole))

/-- What a node gives a function at a position depends on all but the part there. -/
theorem bindingAt_eq (h : AlikeBut i a b) (inherited : Option String) :
    a.bindingAt inherited i = b.bindingAt inherited i := by
  -- A part that is bound plays the role of the value, so the one with the name is another.
  have hbound : ∀ (r : Role) (name? name?' : Option String),
      (a.childIndex? r = some i → name? = name?') →
        (if a.childIndex? r = some i then name? else none) =
          if b.childIndex? r = some i then name?' else none := by
    intro r name? name?' hname
    rw [← h.childIndex?_eq r]
    split
    · rename_i hi
      exact hname hi
    · rfl
  unfold bindingAt
  rw [← h.kind]
  split
  · exact hbound .value _ _ fun hi =>
      bind_eq_of_unplaced (fun n => by simp) (h.child?_congr hi (by decide))
  · exact hbound .value _ _ fun hi =>
      bind_eq_of_unplaced (fun n => by simp) (h.child?_congr hi (by decide))
  · refine hbound .right _ _ fun hi =>
      bind_eq_of_unplaced (fun n => ?_) (h.child?_congr hi (by decide))
    simp [Function.comp_def]
  · refine hbound .value _ _ fun hi => bind_eq_of_unplaced (fun n => by simp) ?_
    rw [Option.map_or, Option.map_or, h.child?_congr hi (s := .name) (by decide),
      h.child?_congr hi (s := .property) (by decide)]
  · rfl

end AlikeBut

end Node

/-- Two places have the same surroundings: step by step the nodes above them are alike but for
the part that leads down. What stands at the places is left open. -/
inductive Place.SameSurroundings : Place → Place → Prop
  | root {m n : Node} : SameSurroundings (.root m) (.root n)
  | part {p q : Place} {i : Nat} {m n : Node} :
      SameSurroundings p q → Node.AlikeBut i p.node q.node →
        SameSurroundings (.part p i m) (.part q i n)

/-- The surroundings alone decide on the name they give. -/
theorem Place.SameSurroundings.binding_eq {p q : Place} (h : p.SameSurroundings q) :
    p.binding = q.binding := by
  induction h with
  | root => rfl
  | part _ halike ih => rw [binding, binding, ← ih, halike.bindingAt_eq]

/-! ### Chains of wrappers -/

/-- From the first place down to the second one there are only wrappers, of the kinds listed
from the outermost one on. They may have any other parts. -/
inductive Place.Inside : Place → List Kind → Place → Prop
  | nil {p : Place} : Inside p [] p
  | cons {q p : Place} {k : Kind} {ks : List Kind} {i : Nat} {n : Node} :
      q.node.kind = k → k.isTransparent = true → q.node.children[i]? = some n →
        Inside (.part q i n) ks p → Inside q (k :: ks) p

theorem Node.bindingAt_of_isTransparent {n : Node} (h : n.kind.isTransparent = true)
    (inherited : Option String) (i : Nat) : n.bindingAt inherited i = inherited := by
  unfold bindingAt
  split
  all_goals first
    | (rename_i hkind; rw [hkind] at h; cases h)
    | exact if_pos h

/-- Wrappers hand on the name. -/
theorem Place.Inside.binding_eq {q p : Place} {ks : List Kind} (h : q.Inside ks p) :
    p.binding = q.binding := by
  induction h with
  | nil => rfl
  | cons hkind htransparent _ _ ih =>
      rw [ih, binding, Node.bindingAt_of_isTransparent (hkind ▸ htransparent)]

/-- The node as a part in another role, or in none. -/
def Node.inRole (r : Option Role) : Node → Node
  | .mk kind _ text startLine endLine children => .mk kind r text startLine endLine children

/-- The node at `p` is found at `p'` once wrappers of the kinds listed, from the outermost one
on, have been put around it. -/
structure Place.Wrapped (p : Place) (ks : List Kind) (p' : Place) : Prop where
  /-- The outermost wrapper stands where the node stood, in the same role. -/
  chain : ∃ q, p.SameSurroundings q ∧ q.Inside ks p'
  /-- The node itself is the same, but for its role and lines. -/
  node : (p'.node.inRole none).unplaced = (p.node.inRole none).unplaced

namespace Node

@[simp] theorem kind_inRole (r : Option Role) (n : Node) : (n.inRole r).kind = n.kind := by
  cases n
  rfl

@[simp] theorem child?_inRole (r : Option Role) (n : Node) (s : Role) :
    (n.inRole r).child? s = n.child? s := by
  cases n
  rfl

@[simp] theorem inRole_inRole (r s : Option Role) (n : Node) :
    (n.inRole r).inRole s = n.inRole s := by
  cases n
  rfl

/-- Its role and lines do not tell a function's name. -/
theorem namedForm?_congr {a b : Node}
    (h : (a.inRole none).unplaced = (b.inRole none).unplaced) (binding : Option String) :
    a.namedForm? binding = b.namedForm? binding := by
  have hkind : a.kind = b.kind := by simpa using congrArg kind h
  have hname : (a.child? .name).map unplaced = (b.child? .name).map unplaced := by
    simpa using congrArg (child? · .name) h
  have hmethod : a.methodName? = b.methodName? := bind_eq_of_unplaced (fun n => by simp) hname
  unfold namedForm?
  rw [hkind]
  split
  · rw [Option.map_eq_bind, Option.map_eq_bind]
    exact bind_eq_of_unplaced (fun n => by simp) hname
  · rw [Option.map_eq_bind, Option.map_eq_bind]
    exact bind_eq_of_unplaced (fun n => by simp) hname
  · rw [hmethod]
  all_goals rfl

end Node

/-- The name and form that an identity gives a function. -/
def Identity.nameAndKind (identity : Identity) : String × EntityKind :=
  (identity.name, identity.kind)

/-- Name and form are those of the named form, unless that has no name. -/
theorem Node.nameAndKind_identity? (n : Node) (binding : Option String) :
    (n.identity? binding).map Identity.nameAndKind =
      (n.namedForm? binding).filter fun form => !form.1.isEmpty := by
  unfold identity?
  cases n.namedForm? binding with
  | none => rfl
  | some form =>
      rw [Option.filter_some]
      by_cases hname : form.1.isEmpty <;> simp [hname, Identity.nameAndKind]

/-! ### Putting wrappers around a node -/

/-- The node with another part at a position. -/
def Node.replacePart (n : Node) (i : Nat) (part : Node) : Node :=
  .mk n.kind n.role n.text n.startLine n.endLine (n.children.set i part)

theorem Node.alikeBut_replacePart {n m : Node} {i : Nat} (hm : n.children[i]? = some m)
    {part : Node} (hrole : part.role = m.role) : AlikeBut i n (n.replacePart i part) where
  kind := rfl
  roles := by
    obtain ⟨hi, rfl⟩ := List.getElem?_eq_some_iff.mp hm
    change _ = (n.children.set i part).map role
    rw [List.map_set, hrole, ← List.map_set, List.set_getElem_self]
  parts := by
    intro j hj
    change _ = (n.children.set i part)[j]?.map unplaced
    rw [List.getElem?_set_ne hj.symm]

/-- At every place of a tree another node can be put in the same role. -/
theorem Place.Covers.exists_replaced {tree : Node} {p : Place} (hp : (Place.root tree).Covers p)
    {n : Node} (hn : n.role = p.node.role) :
    ∃ tree' q, (Place.root tree').Covers q ∧ q.node = n ∧ p.SameSurroundings q := by
  induction hp generalizing n with
  | refl => exact ⟨n, .root n, .refl, rfl, .root⟩
  | @part w i m _ hm ih =>
      obtain ⟨tree', q, hq, hnode, hsame⟩ := ih (n := w.node.replacePart i n) rfl
      have halike : Node.AlikeBut i w.node q.node := hnode ▸ Node.alikeBut_replacePart hm hn
      refine ⟨tree', .part q i n, hq.part ?_, rfl, hsame.part halike⟩
      rw [hnode]
      exact List.getElem?_set_self (List.getElem?_eq_some_iff.mp hm).1

/-- A node inside wrappers of some kinds, the first one outermost, which have no other
parts. -/
def Node.wrap (ks : List Kind) (n : Node) : Node :=
  ks.foldr (fun k inner =>
    .mk k inner.role inner.text inner.startLine inner.endLine [inner.inRole none]) n

theorem Node.role_wrap (ks : List Kind) (n : Node) : (n.wrap ks).role = n.role := by
  induction ks with
  | nil => rfl
  | cons k ks ih => exact ih

theorem Node.wrap_cons (k : Kind) (ks : List Kind) (n : Node) :
    n.wrap (k :: ks) = .mk k (n.wrap ks).role (n.wrap ks).text (n.wrap ks).startLine
      (n.wrap ks).endLine [(n.wrap ks).inRole none] := rfl

/-- It is the outermost wrapper that plays the role. -/
theorem Node.inRole_wrap (ks : List Kind) (r : Option Role) (n : Node) :
    (n.wrap ks).inRole r = (n.inRole r).wrap ks := by
  induction ks with
  | nil => rfl
  | cons k ks ih =>
      rw [wrap_cons, wrap_cons, ← ih]
      cases n.wrap ks
      rfl

/-- Inside the wrappers that were put around a node there is that node. -/
theorem Place.exists_inside {ks : List Kind} (hks : ∀ k ∈ ks, k.isTransparent = true)
    {q : Place} {n : Node} (hq : q.node = n.wrap ks) :
    ∃ p, q.Covers p ∧ q.Inside ks p ∧ p.node.inRole none = n.inRole none := by
  induction ks generalizing q n with
  | nil => exact ⟨q, .refl, .nil, congrArg (Node.inRole none) hq⟩
  | cons k ks ih =>
      obtain ⟨hk, hks⟩ := List.forall_mem_cons.mp hks
      have hinner : (n.wrap ks).inRole none = (n.inRole none).wrap ks := Node.inRole_wrap ks none n
      have hpart : q.node.children[0]? = some ((n.inRole none).wrap ks) := by
        rw [hq, Node.wrap_cons, ← hinner]
        rfl
      have hkind : q.node.kind = k := by
        rw [hq, Node.wrap_cons]
        rfl
      obtain ⟨p, hcovers, hinside, hnode⟩ := ih hks (q := .part q 0 ((n.inRole none).wrap ks)) rfl
      rw [Node.inRole_inRole] at hnode
      exact ⟨p, (Covers.refl.part hpart).trans hcovers, .cons hkind hk hpart hinside, hnode⟩

/-- Wrappers of any kinds can be put around a node of a tree. -/
theorem Place.Covers.exists_wrapped {tree : Node} {p : Place} (hp : (Place.root tree).Covers p)
    {ks : List Kind} (hks : ∀ k ∈ ks, k.isTransparent = true) :
    ∃ tree' p', (Place.root tree').Covers p' ∧ p.Wrapped ks p' := by
  obtain ⟨tree', q, hq, hnode, hsame⟩ := hp.exists_replaced (Node.role_wrap ks p.node)
  obtain ⟨p', hp', hinside, hinner⟩ := Place.exists_inside hks hnode
  exact ⟨tree', p', hq.trans hp', ⟨q, hsame, hinside⟩, congrArg Node.unplaced hinner⟩

namespace Place.Wrapped

variable {p p' : Place} {ks : List Kind}

/-- Wrappers do not change the name that the surroundings give. -/
theorem binding_eq (h : p.Wrapped ks p') : p'.binding = p.binding := by
  obtain ⟨q, hsame, hinside⟩ := h.chain
  rw [hinside.binding_eq, hsame.binding_eq]

theorem nameAndKind_eq (h : p.Wrapped ks p') :
    p'.identity?.map Identity.nameAndKind = p.identity?.map Identity.nameAndKind := by
  unfold identity?
  rw [Node.nameAndKind_identity?, Node.nameAndKind_identity?, h.binding_eq,
    Node.namedForm?_congr h.node]

end Place.Wrapped

/-- **Wrapping does not unbind.** Around every node of every tree, function literals among
them, any chain of wrappers can be put. However that is done, the walk of the new tree meets
the node with the name and form that it has for the walk of the old one, or without any if it
has none there. -/
theorem wrapping_keepsName {tree : Node} {p : Place} (hp : (Place.root tree).Covers p)
    {ks : List Kind} (hks : ∀ k ∈ ks, k.isTransparent = true) :
    p.visit ∈ walk tree ∧
      (∃ tree' p', (Place.root tree').Covers p' ∧ p.Wrapped ks p') ∧
      ∀ tree' p', (Place.root tree').Covers p' → p.Wrapped ks p' →
        p'.visit ∈ walk tree' ∧
        p'.visit.identity?.map Identity.nameAndKind =
          p.visit.identity?.map Identity.nameAndKind ∧
        (p'.visit.identity? = none ↔ p.visit.identity? = none) := by
  have hmet : ∀ {t : Node} {q : Place}, (Place.root t).Covers q → q.visit ∈ walk t := by
    intro t q hq
    rw [walk_eq]
    exact List.mem_map_of_mem (Place.mem_places.mpr hq)
  refine ⟨hmet hp, hp.exists_wrapped hks, ?_⟩
  intro tree' p' hp' hwrapped
  have hname := hwrapped.nameAndKind_eq
  refine ⟨hmet hp', hname, ?_⟩
  -- There is no identity exactly where there is no name in it.
  rw [← Option.map_eq_none_iff (f := Identity.nameAndKind),
    ← Option.map_eq_none_iff (f := Identity.nameAndKind)]
  exact Eq.congr_left hname

/-- `h = …` with a given value. -/
def constantDeclarator (value : Node) : Node :=
  .mk .variableDeclarator none ("h = " ++ value.text) 1 value.endLine
    [.mk .identifier (some .name) "h" 1 1 [], value.withRole .value]

/-- `const h = …;` as a statement. -/
def constantStatement (value : Node) : Node :=
  .mk (.other "variables") none ("const h = " ++ value.text ++ ";") 1 value.endLine
    [constantDeclarator value]

/-- The script that consists of this statement. -/
def constantScript (value : Node) : Node :=
  .mk (.other "program") none (constantStatement value).text 1 value.endLine
    [constantStatement value]

/-- The place of the value in the script. -/
def constantPlace (value : Node) : Place :=
  .part (.part (.part (.root (constantScript value)) 0 (constantStatement value)) 0
    (constantDeclarator value)) 1 (value.withRole .value)

/-- The function `() => {}` on some line. -/
def emptyArrow (line : Nat) : Node :=
  .mk .arrowFunction none "() => \x7b\x7d" line line
    [.mk (.other "parameters") (some .parameters) "()" line line [],
      .mk (.other "block") none "\x7b\x7d" line line []]

/-- The function on the second line, in parentheses that open on the first one. -/
def groupedArrow : Node := .mk .parenthesized none "(\n  () => \x7b\x7d)" 1 2 [emptyArrow 2]

/-- The function in parentheses as a value of the type `H`. -/
def typedArrow : Node :=
  .mk .asExpression none "(\n  () => \x7b\x7d) as H" 1 2
    [groupedArrow, .mk (.other "type name") none "H" 2 2 []]

/-- The place of the function inside both wrappers. -/
def typedPlace : Place := .part (.part (constantPlace typedArrow) 0 groupedArrow) 0 (emptyArrow 2)

theorem covers_constantPlace (value : Node) :
    (Place.root (constantScript value)).Covers (constantPlace value) :=
  ((Place.Covers.refl.part rfl).part rfl).part rfl

/-- What surrounds the value does not depend on it, text and lines aside. -/
theorem sameSurroundings_constantPlace (value value' : Node) :
    (constantPlace value).SameSurroundings (constantPlace value') := by
  have hroles : (constantDeclarator value).children.map Node.role =
      (constantDeclarator value').children.map Node.role := by
    cases value
    cases value'
    rfl
  refine .part (.part (.part .root ⟨rfl, rfl, ?_⟩) ⟨rfl, rfl, ?_⟩) ⟨rfl, hroles, ?_⟩
  all_goals
    intro j hj
    rcases j with _ | _ | j <;> first | rfl | exact absurd rfl hj

theorem wrapping_keepsName_typedArrow :
    (Place.root (constantScript (emptyArrow 1))).Covers (constantPlace (emptyArrow 1)) ∧
      (∀ k ∈ [Kind.asExpression, .parenthesized], k.isTransparent = true) ∧
      (Place.root (constantScript typedArrow)).Covers typedPlace ∧
      (constantPlace (emptyArrow 1)).Wrapped [.asExpression, .parenthesized] typedPlace ∧
      typedPlace.visit.identity?.map Identity.nameAndKind = some ("h", .arrow) := by
  have hks : ∀ k ∈ [Kind.asExpression, .parenthesized], k.isTransparent = true := by decide
  have hcovers : (Place.root (constantScript typedArrow)).Covers typedPlace :=
    ((covers_constantPlace typedArrow).part rfl).part rfl
  have hwrapped : (constantPlace (emptyArrow 1)).Wrapped [.asExpression, .parenthesized]
      typedPlace :=
    ⟨⟨constantPlace typedArrow, sameSurroundings_constantPlace _ _,
      .cons rfl rfl rfl (.cons rfl rfl rfl .nil)⟩, rfl⟩
  refine ⟨covers_constantPlace _, hks, hcovers, hwrapped, ?_⟩
  have hsame := (wrapping_keepsName (covers_constantPlace (emptyArrow 1)) hks).2.2
  rw [(hsame _ _ hcovers hwrapped).2.1]
  decide

end CallAtlas.Script
