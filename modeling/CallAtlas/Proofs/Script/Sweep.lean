import CallAtlas.Proofs.Script.Place
import CallAtlas.Script.ParsedFile

/-!
# A sweep keeps document order

A sweep has no recursion to lean on, only its stack. **What the stack stands for** is
everything still to be met: the nodes on it, from the top down, each followed by all that
is below it (`pending`). Meeting the node on top and putting its parts in its place takes
the first item off that list and changes nothing else (`pending_step`), so a sweep meets
exactly this list, in this order (`sweep_eq`). For a whole tree the list is the walk of
the tree.

What the extractions collect on a sweep is therefore a filter of the walk.
-/

namespace CallAtlas.Script

/-! ### What a stack stands for -/

/-- A node with all that is below it, in document order. -/
def Visit.below (v : Visit) : List Visit := visits v.binding v.enclosing v.node

/-- A node comes before its parts, and these come one after the other. -/
theorem Visit.below_eq (v : Visit) : v.below = v :: v.parts.flatMap below := by
  unfold below parts
  rw [visits_eq, List.flatMap_map]
  rfl

/-- All that is still to be met, from the top of the stack down. -/
def pending (stack : Array Visit) : List Visit := stack.toList.reverse.flatMap Visit.below

theorem toList_of_back? {α : Type} {stack : Array α} {a : α} (h : stack.back? = some a) :
    stack.toList = stack.pop.toList ++ [a] := by
  rw [← Array.getLast?_toList] at h
  obtain ⟨rest, hstack⟩ := List.getLast?_eq_some_iff.mp h
  rw [Array.toList_pop, hstack, List.dropLast_concat]

theorem pending_step {stack : Array Visit} {v : Visit} (h : stack.back? = some v) :
    pending stack = v :: pending (stack.pop ++ v.parts.reverse) := by
  unfold pending
  rw [Array.toList_appendList, toList_of_back? h, List.reverse_concat, List.flatMap_cons,
    Visit.below_eq, List.reverse_append, List.reverse_reverse, List.flatMap_append]
  rfl

/-- **A sweep meets what its stack stands for.** More fuel than that would change
nothing. -/
theorem sweep_eq {σ : Type} (meet : σ → Visit → σ) {fuel : Nat} {stack : Array Visit} (s : σ)
    (h : (pending stack).length ≤ fuel) :
    sweep meet fuel stack s = (pending stack).foldl meet s := by
  induction fuel generalizing stack s with
  | zero =>
      rw [List.length_eq_zero_iff.mp (Nat.le_zero.mp h)]
      rfl
  | succ fuel ih =>
      rw [sweep]
      cases htop : stack.back? with
      | none =>
          rw [Array.back?_eq_none_iff] at htop
          rw [htop]
          rfl
      | some v =>
          rw [pending_step htop, List.length_cons] at h
          rw [pending_step htop, List.foldl_cons]
          exact ih (meet s v) (Nat.le_of_succ_le_succ h)

mutual

theorem length_visits (binding : Option String) (enclosing : Option Identity) :
    (n : Node) → (visits binding enclosing n).length = n.size
  | .mk _ _ _ _ _ children => by
      rw [visits, List.length_cons, length_visitsOfParts _ _ _ _ children, Node.size]

theorem length_visitsOfParts (parent : Node) (inherited : Option String)
    (enclosing : Option Identity) (index : Nat) :
    (parts : List Node) →
      (visitsOfParts parent inherited enclosing index parts).length = sizeOfParts parts
  | [] => rfl
  | part :: parts => by
      rw [visitsOfParts, List.length_append, length_visits _ _ part,
        length_visitsOfParts _ _ _ _ parts, sizeOfParts]

end

/-- **A sweep over a tree meets its nodes in the order of the walk**, and ends by itself. -/
theorem sweep_tree {σ : Type} (tree : Node) (meet : σ → Visit → σ) (s : σ) {fuel : Nat}
    (h : tree.size ≤ fuel) :
    sweep meet fuel #[⟨tree, none, none⟩] s = (walk tree).foldl meet s := by
  have hpending : pending #[⟨tree, none, none⟩] = walk tree := List.append_nil _
  rw [← hpending]
  apply sweep_eq
  rw [hpending, walk, length_visits]
  exact h

theorem Node.sweep_eq {σ : Type} (tree : Node) (meet : σ → Visit → σ) (s : σ) :
    tree.sweep meet s = (walk tree).foldl meet s :=
  sweep_tree tree meet s (Nat.le_refl tree.size)

/-! ### What is collected on a sweep -/

namespace ParsedFile

theorem toList_foldl_takeEntity (file : ParsedFile) (vs : List Visit) (found : Array Entity) :
    (vs.foldl file.takeEntity found).toList = found.toList ++ vs.filterMap file.entityAt? := by
  induction vs generalizing found with
  | nil => simp
  | cons v vs ih =>
      rw [List.foldl_cons, ih, List.filterMap_cons]
      unfold takeEntity
      cases file.entityAt? v <;> simp

/-- The entities of a file are those that the walk finds. -/
theorem entities_eq_filterMap (file : ParsedFile) :
    file.entities = (walk file.tree).filterMap file.entityAt? := by
  unfold entities
  rw [Node.sweep_eq, toList_foldl_takeEntity]
  rfl

/-- A call is a call site or has no static name, but not both. -/
theorem isDynamicCall_of_callSiteAt? {file : ParsedFile} {v : Visit} {site : CallSite}
    (h : file.callSiteAt? v = some site) : isDynamicCall v = false := by
  unfold callSiteAt? at h
  split at h
  · obtain ⟨_, hcallee, _⟩ := Option.map_eq_some_iff.mp h
    unfold isDynamicCall
    rw [hcallee]
    exact Bool.and_false _
  · cases h

theorem foldl_takeCall (file : ParsedFile) (vs : List Visit) (found : FoundCalls) :
    (vs.foldl file.takeCall found).sites.toList =
        found.sites.toList ++ vs.filterMap file.callSiteAt? ∧
      (vs.foldl file.takeCall found).dynamic = found.dynamic + vs.countP isDynamicCall := by
  induction vs generalizing found with
  | nil => simp
  | cons v vs ih =>
      obtain ⟨hsites, hdynamic⟩ := ih (file.takeCall found v)
      rw [List.foldl_cons, hsites, hdynamic, List.filterMap_cons, List.countP_cons]
      unfold takeCall
      cases hsite : file.callSiteAt? v with
      | none =>
          by_cases hcall : isDynamicCall v
          · simp [hcall]
            omega
          · simp [hcall]
      | some site => simp [isDynamicCall_of_callSiteAt? hsite]

/-- The call sites of a file are those that the walk finds. -/
theorem callSites_eq_filterMap (file : ParsedFile) :
    file.callSites = (walk file.tree).filterMap file.callSiteAt? := by
  unfold callSites foundCalls
  rw [Node.sweep_eq, (file.foldl_takeCall _ _).1]
  rfl

/-- The calls without a static name are those that the walk meets. -/
theorem dynamicCalls_eq_countP (file : ParsedFile) :
    file.dynamicCalls = (walk file.tree).countP isDynamicCall := by
  unfold dynamicCalls foundCalls
  rw [Node.sweep_eq, (file.foldl_takeCall _ _).2, Nat.zero_add]

end ParsedFile

end CallAtlas.Script
