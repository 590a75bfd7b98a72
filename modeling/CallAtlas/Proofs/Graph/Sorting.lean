import Mathlib
import CallAtlas.Proofs.Graph.Adjacency

/-!
# Sorted views

A graph shows its edges, its groups and the neighbours of an entity sorted. Sorting
by a comparison that tells all items apart gives the same list for every order of
the items (`mergeSort_cmp_eq_of_perm`). Ids tell the positions of a graph apart, and
texts are compared as a whole; so neither the neighbours of an entity nor the groups
show the order in which things were added.
-/

namespace CallAtlas

/-! ### Sorting by a comparison -/

section

variable {α : Type} (cmp : α → α → Ordering) [Std.TransCmp cmp]

theorem pairwise_mergeSort_cmp (l : List α) :
    (l.mergeSort fun a b => (cmp a b).isLE).Pairwise fun a b => (cmp a b).isLE = true := by
  apply List.pairwise_mergeSort
  · intro a b c
    exact Std.TransCmp.isLE_trans
  · intro a b
    have hswap : cmp a b = (cmp b a).swap := Std.OrientedCmp.eq_swap
    rw [hswap]
    cases cmp b a <;> rfl

/-- Where equal comparison means equality, the order of the items is forgotten. -/
theorem mergeSort_cmp_eq_of_perm {l m : List α} (h : l.Perm m)
    (heq : ∀ a ∈ l, ∀ b ∈ l, cmp a b = .eq → a = b) :
    (l.mergeSort fun a b => (cmp a b).isLE) = m.mergeSort fun a b => (cmp a b).isLE := by
  have hperm : (l.mergeSort fun a b => (cmp a b).isLE).Perm
      (m.mergeSort fun a b => (cmp a b).isLE) :=
    ((List.mergeSort_perm l _).trans h).trans (List.mergeSort_perm m _).symm
  refine hperm.eq_of_pairwise ?_ (pairwise_mergeSort_cmp cmp l) (pairwise_mergeSort_cmp cmp m)
  intro a b ha hb hab hba
  have ha : a ∈ l := (List.mergeSort_perm l _).mem_iff.mp ha
  have hb : b ∈ l := h.mem_iff.mpr ((List.mergeSort_perm m _).mem_iff.mp hb)
  exact heq a ha b hb (Std.OrientedCmp.isLE_antisymm hab hba)

end

/-! ### Sorted without repeats -/

theorem mem_dedupSorted {β : Type} [BEq β] [LawfulBEq β] {xs : List β} {x : β} :
    x ∈ dedupSorted xs ↔ x ∈ xs := by
  induction xs using dedupSorted.induct with
  | case1 => simp [dedupSorted]
  | case2 a => simp [dedupSorted]
  | case3 a b rest heq ih =>
      obtain rfl := beq_iff_eq.mp heq
      simp [dedupSorted, ih]
  | case4 a b rest hne ih =>
      rw [dedupSorted, if_neg hne, List.mem_cons, ih, List.mem_cons (a := x) (b := a)]

/-- The distinct items of a sorted list increase. -/
theorem pairwise_dedupSorted {β : Type} [LinearOrder β] [BEq β] [LawfulBEq β] {xs : List β}
    (h : xs.Pairwise (· ≤ ·)) : (dedupSorted xs).Pairwise (· < ·) := by
  induction xs using dedupSorted.induct with
  | case1 => simp [dedupSorted]
  | case2 a => simp [dedupSorted]
  | case3 a b rest heq ih =>
      rw [dedupSorted, if_pos heq]
      exact ih (List.pairwise_cons.mp h).2
  | case4 a b rest hne ih =>
      obtain ⟨ha, hrest⟩ := List.pairwise_cons.mp h
      rw [dedupSorted, if_neg hne, List.pairwise_cons]
      refine ⟨?_, ih hrest⟩
      intro c hc
      have hab : a < b := lt_of_le_of_ne (ha b List.mem_cons_self) (by simpa using hne)
      rcases List.mem_cons.mp (mem_dedupSorted.mp hc) with rfl | hc
      · exact hab
      · exact lt_of_lt_of_le hab ((List.pairwise_cons.mp hrest).1 c hc)

theorem pairwise_distinctSorted (ss : List String) : (distinctSorted ss).Pairwise (· < ·) := by
  apply pairwise_dedupSorted
  exact (pairwise_mergeSort_cmp compare ss).imp fun h => Std.LawfulBCmp.isLE_iff_le.mp h

theorem nodup_distinctSorted (ss : List String) : (distinctSorted ss).Nodup :=
  (pairwise_distinctSorted ss).imp fun h => ne_of_lt h

theorem mem_distinctSorted {ss : List String} {s : String} : s ∈ distinctSorted ss ↔ s ∈ ss := by
  rw [distinctSorted, mem_dedupSorted, List.mem_mergeSort]

/-- The distinct texts of a list do not depend on its order. -/
theorem distinctSorted_perm {ss ts : List String} (h : ss.Perm ts) :
    distinctSorted ss = distinctSorted ts := by
  unfold distinctSorted
  rw [mergeSort_cmp_eq_of_perm compare h fun _ _ _ _ => Std.LawfulEqCmp.eq_of_compare]

/-! ### Edges -/

instance : Std.TransCmp Edge.order :=
  inferInstanceAs (Std.TransCmp
    (compareLex (compareOn Edge.source) (compareLex (compareOn Edge.target) (compareOn Edge.line))))

theorem Edge.eq_of_order_eq {a b : Edge} (h : a.order b = .eq) : a = b := by
  unfold order at h
  rw [Ordering.then_eq_eq, Ordering.then_eq_eq] at h
  obtain ⟨hsource, htarget, hline⟩ := h
  cases a
  cases b
  cases Std.LawfulEqCmp.eq_of_compare hsource
  cases Std.LawfulEqCmp.eq_of_compare htarget
  cases Std.LawfulEqCmp.eq_of_compare hline
  rfl

namespace Graph

/-- The edges of a graph come by caller, then callee. -/
theorem edges_pairwise (g : Graph) : g.edges.Pairwise fun a b => (a.order b).isLE = true :=
  pairwise_mergeSort_cmp Edge.order (g.links.toList.map g.edgeOf)

/-- Graphs that have the same edges list them in the same order. -/
theorem WellFormed.edges_eq_of_mem_iff {g g' : Graph} (hg : g.WellFormed) (hg' : g'.WellFormed)
    (h : ∀ e, e ∈ g.edges ↔ e ∈ g'.edges) : g.edges = g'.edges := by
  have hperm : g.edges.Perm g'.edges :=
    (List.perm_ext_iff_of_nodup hg.nodup_edges.of_map hg'.nodup_edges.of_map).mpr h
  refine hperm.eq_of_pairwise ?_ g.edges_pairwise g'.edges_pairwise
  intro a b _ _ hab hba
  exact Edge.eq_of_order_eq (Std.OrientedCmp.isLE_antisymm hab hba)

/-! ### Positions -/

/-- Ids tell positions apart, so positions sorted by id forget the order they were
in. -/
theorem WellFormed.sortedById_eq_of_perm {g : Graph} (hg : g.WellFormed) {is js : List Nat}
    (h : is.Perm js) (hlt : ∀ i ∈ is, i < g.entityCount) : g.sortedById is = g.sortedById js := by
  refine mergeSort_cmp_eq_of_perm (compareOn fun i => (g.node i).id) h ?_
  intro i hi j hj hij
  exact hg.node_id_inj (hlt i hi) (hlt j hj) (Std.LawfulEqCmp.eq_of_compare hij)

end Graph

end CallAtlas
