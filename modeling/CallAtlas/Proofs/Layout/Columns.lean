import Mathlib
import CallAtlas.Proofs.Graph.Sorting
import CallAtlas.Proofs.Layout.Placement

/-!
# Ranks and columns

The entities of a lane are ranked and then cut into columns of one size. Two facts say
all about it. The ranking is strict, because ids are distinct, so **the rank of an entity
is the number of those that come before it** (`WellFormed.pairwise_ranked`,
`countP_before`). And the member of rank `r` stands in column `r / m`, where `m` is the
size of the columns (`mem_chunk_iff`): the column of an entity depends on its rank alone.
-/

namespace CallAtlas

/-! ### Pieces of one size -/

section Chunks

variable {β : Type}

theorem getElem?_chunksUpTo {size : Nat} (hsize : 0 < size) {fuel : Nat} {xs : List β}
    (hlen : xs.length ≤ fuel) (c : Nat) :
    (chunksUpTo size fuel xs)[c]? =
      if c * size < xs.length then some ((xs.drop (c * size)).take size) else none := by
  induction fuel generalizing xs c with
  | zero =>
      obtain rfl := List.length_eq_zero_iff.mp (Nat.le_zero.mp hlen)
      simp [chunksUpTo]
  | succ fuel ih =>
      cases xs with
      | nil => simp [chunksUpTo]
      | cons x xs =>
          rw [chunksUpTo_cons]
          cases c with
          | zero => simp
          | succ c =>
              have hrest : ((x :: xs).drop size).length ≤ fuel := by
                rw [List.length_drop]
                omega
              have hindex : c * size < ((x :: xs).drop size).length ↔
                  (c + 1) * size < (x :: xs).length := by
                rw [List.length_drop, Nat.succ_mul]
                omega
              rw [List.getElem?_cons_succ, ih hrest, List.drop_drop, Nat.add_comm size,
                ← Nat.succ_mul]
              simp only [hindex]

/-- The size of the pieces: zero counts as one. -/
theorem getElem?_chunks (size : Nat) (xs : List β) (c : Nat) :
    (chunks size xs)[c]? = if c * max 1 size < xs.length then
      some ((xs.drop (c * max 1 size)).take (max 1 size)) else none :=
  getElem?_chunksUpTo (by omega) (Nat.le_refl _) c

theorem lt_ceilDiv_iff {size : Nat} (hsize : 0 < size) {n c : Nat} :
    c < n ⌈/⌉ size ↔ c * size < n := by
  rw [← not_le, ← not_le, ceilDiv_le_iff_le_mul hsize, Nat.mul_comm]

/-- There are as many pieces as it takes, the last one rounded up. -/
theorem length_chunks (size : Nat) (xs : List β) :
    (chunks size xs).length = xs.length ⌈/⌉ max 1 size := by
  apply eq_of_forall_lt_iff
  intro c
  rw [lt_ceilDiv_iff (by omega)]
  have hget := getElem?_chunks size xs c
  split at hget
  · rename_i hlt
    simp [hlt, (List.getElem?_eq_some_iff.mp hget).1]
  · rename_i hle
    simpa [hle] using List.getElem?_eq_none_iff.mp hget

/-- The piece that an item is in depends on its position alone. -/
theorem mem_chunk_iff {size : Nat} (hsize : 0 < size) {xs : List β} {c : Nat} {x : β} :
    x ∈ (xs.drop (c * size)).take size ↔ ∃ r, xs[r]? = some x ∧ r / size = c := by
  rw [List.mem_iff_getElem?]
  simp only [List.getElem?_take, List.getElem?_drop]
  constructor
  · rintro ⟨j, hj⟩
    by_cases hlt : j < size
    · rw [if_pos hlt] at hj
      refine ⟨c * size + j, hj, ?_⟩
      rw [Nat.mul_comm, Nat.mul_add_div hsize, Nat.div_eq_of_lt hlt, Nat.add_zero]
    · rw [if_neg hlt] at hj
      cases hj
  · rintro ⟨r, hr, rfl⟩
    refine ⟨r % size, ?_⟩
    rw [if_pos (Nat.mod_lt r hsize), Nat.div_add_mod', hr]

end Chunks

/-! ### Ranks -/

/-- The first entity comes before the second in its lane: it makes more calls; or as many,
and it is called more often; or as often, and its name comes first; or the names are the
same, and its id comes first. -/
def Entity.Before (a b : Entity) : Prop :=
  b.outDegree < a.outDegree ∨ b.outDegree = a.outDegree ∧
    (b.inDegree < a.inDegree ∨ b.inDegree = a.inDegree ∧
      (a.name < b.name ∨ a.name = b.name ∧ a.id < b.id))

instance (a b : Entity) : Decidable (a.Before b) :=
  inferInstanceAs (Decidable (_ ∨ _ ∧ (_ ∨ _ ∧ (_ ∨ _ ∧ _))))

theorem Entity.Before.asymm {a b : Entity} (h : a.Before b) : ¬ b.Before a := by
  unfold Before at *
  rcases h with h | ⟨hout, h | ⟨hin, h | ⟨hname, h⟩⟩⟩
  · omega
  · omega
  · have := lt_asymm h
    have := ne_of_gt h
    grind
  · have := lt_asymm h
    grind

theorem Entity.not_before_self (a : Entity) : ¬ a.Before a := fun h => h.asymm h

/-- In a list in which everything comes before what follows it, the position of an item
is the number of items that come before it. -/
theorem countP_before {es : List Entity} (hes : es.Pairwise Entity.Before) {r : Nat} {e : Entity}
    (h : es[r]? = some e) : es.countP (·.Before e) = r := by
  induction es generalizing r with
  | nil => cases h
  | cons a es ih =>
      obtain ⟨hfirst, hrest⟩ := List.pairwise_cons.mp hes
      cases r with
      | zero =>
          cases h
          simpa [e.not_before_self] using fun b hb => (hfirst b hb).asymm
      | succ r =>
          have hbefore := hfirst e (List.mem_of_getElem? h)
          simp [ih hrest h, hbefore]

namespace Graph

theorem rankOrder_eq_lt {g : Graph} {i j : Nat} :
    g.rankOrder i j = .lt ↔ (g.node i).Before (g.node j) := by
  simp only [rankOrder, Entity.Before, Ordering.then_eq_lt, compare_lt_iff_lt,
    Std.compare_eq_iff_eq]

instance (g : Graph) : Std.TransCmp g.rankOrder :=
  inferInstanceAs (Std.TransCmp
    (compareLex (fun i j => compareOn (fun k => (g.node k).outDegree) j i)
      (compareLex (fun i j => compareOn (fun k => (g.node k).inDegree) j i)
        (compareLex (compareOn fun k => (g.node k).name) (compareOn fun k => (g.node k).id)))))

theorem ranked_perm (g : Graph) (members : List Nat) : (g.ranked members).Perm members :=
  List.mergeSort_perm _ _

/-- The ranking is strict, because ids are distinct. -/
theorem WellFormed.pairwise_ranked {g : Graph} (hg : g.WellFormed) {members : List Nat}
    (hnd : members.Nodup) (hlt : ∀ i ∈ members, i < g.entityCount) :
    ((g.ranked members).map g.node).Pairwise Entity.Before := by
  rw [List.pairwise_map]
  have hsorted := pairwise_mergeSort_cmp g.rankOrder members
  have hdistinct : (g.ranked members).Nodup := (g.ranked_perm members).nodup_iff.mpr hnd
  refine (hsorted.and hdistinct).imp_of_mem ?_
  rintro i j hi hj ⟨hle, hne⟩
  rcases Ordering.isLE_iff_eq_lt_or_eq_eq.mp hle with horder | horder
  · exact rankOrder_eq_lt.mp horder
  · simp only [rankOrder, Ordering.then_eq_eq, Std.compare_eq_iff_eq] at horder
    have hi := hlt i ((g.ranked_perm members).mem_iff.mp hi)
    have hj := hlt j ((g.ranked_perm members).mem_iff.mp hj)
    exact absurd (hg.node_id_inj hi hj horder.2.2.2) hne

end Graph

/-! ### Lanes -/

namespace Graph

variable {α : Type} [Coordinate α]

theorem mem_groups {g : Graph} {name : String} :
    name ∈ g.groups ↔ ∃ i < g.entityCount, (g.node i).group = name := by
  rw [groups, mem_distinctSorted, toList_entities]
  simp

theorem nodup_groups (g : Graph) : g.groups.Nodup := nodup_distinctSorted _

/-- There is one lane for each group. -/
theorem names_lanes_perm (g : Graph) : ((g.lanes (α := α)).map (·.name)).Perm g.groups := by
  have hnames : (g.groups.map (g.laneOf (α := α))).map (·.name) = g.groups := by
    rw [List.map_map]
    exact List.map_id _
  rw [← hnames]
  exact (List.mergeSort_perm _ _).map _

theorem nodup_names_lanes (g : Graph) : ((g.lanes (α := α)).map (·.name)).Nodup :=
  g.names_lanes_perm.nodup_iff.mpr g.nodup_groups

theorem laneOf_of_mem {g : Graph} {lane : Lane α} (h : lane ∈ g.lanes) :
    lane = g.laneOf lane.name := by
  obtain ⟨group, _, rfl⟩ := mem_lanes.mp h
  rfl

section Members

variable {g : Graph} {lane : Lane α} (hlane : lane ∈ g.lanes)

include hlane

theorem mem_members {i : Nat} :
    i ∈ lane.members ↔ i < g.entityCount ∧ (g.node i).group = lane.name := by
  rw [laneOf_of_mem hlane]
  exact mem_members_laneOf

theorem nodup_members : lane.members.Nodup := by
  rw [laneOf_of_mem hlane]
  exact g.nodup_members_laneOf _

theorem WellFormed.pairwise_ranking (hg : g.WellFormed) :
    ((g.ranked lane.members).map g.node).Pairwise Entity.Before :=
  hg.pairwise_ranked (nodup_members hlane) fun _ hi => ((mem_members hlane).mp hi).1

/-- The ranking of a lane ranks the entities of its group. -/
theorem ranking_perm :
    ((g.ranked lane.members).map g.node).Perm
      (g.entities.toList.filter (·.group == lane.name)) := by
  rw [laneOf_of_mem hlane]
  refine ((g.ranked_perm _).map _).trans (((g.sortedById_perm _).map _).trans ?_)
  rw [toList_entities, List.filter_map]
  rfl

theorem totalOutDegree_eq_sum :
    lane.totalOutDegree = (((g.ranked lane.members).map g.node).map (·.outDegree)).sum := by
  rw [(((g.ranked_perm _).map _).map _).sum_eq, laneOf_of_mem hlane, List.map_map,
    List.sum_eq_foldl]
  rfl

end Members

end Graph
end CallAtlas
