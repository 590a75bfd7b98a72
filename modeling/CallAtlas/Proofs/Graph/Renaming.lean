import Mathlib
import CallAtlas.Proofs.Graph.Insertion
import CallAtlas.Proofs.Graph.Sorting

/-!
# The same graph at other positions

A graph knows its entities by their positions, and positions depend on the order in
which entities were added. Two graphs that agree by id (`SameCalls`) are the same
graph with its positions renamed (`SameCalls.exists_renaming`). Everything that is
worked out from a graph can then be compared along the renaming: tables hold the
same values at renamed positions (`Renaming.Relabels`), and lists of positions that
are sorted by id are renamed item by item (`RenamedBy.sortedById_eq`), because the
ids are still there to decide the order.

Degrees are not assumed to agree. They count links, so they do
(`RenamedBy.degree_eq`).
-/

namespace CallAtlas

/-- A renaming of positions: different positions stay different, and the first `n`
stay among themselves. -/
structure Renaming (n : Nat) where
  toFun : Nat → Nat
  injective : Function.Injective toFun
  lt_iff : ∀ i, toFun i < n ↔ i < n

namespace Renaming

variable {n : Nat} (π : Renaming n)

instance : CoeFun (Renaming n) fun _ => Nat → Nat := ⟨toFun⟩

/-- The first `n` positions, renamed, are the first `n` positions in another
order. -/
theorem range_perm : (List.range n).Perm ((List.range n).map π) := by
  have hnd : ((List.range n).map π).Nodup := List.nodup_range.map π.injective
  have hsub : (List.range n).map π ⊆ List.range n := by
    intro j hj
    obtain ⟨i, hi, rfl⟩ := List.mem_map.mp hj
    exact List.mem_range.mpr ((π.lt_iff i).mpr (List.mem_range.mp hi))
  refine ((List.subperm_of_subset hnd hsub).perm_of_length_le ?_).symm
  rw [List.length_map]

theorem exists_eq {j : Nat} (hj : j < n) : ∃ i < n, π i = j := by
  obtain ⟨i, hi, heq⟩ := List.mem_map.mp (π.range_perm.mem_iff.mp (List.mem_range.mpr hj))
  exact ⟨i, List.mem_range.mp hi, heq⟩

/-! ### Tables -/

/-- A table holds at every renamed position what another one holds at the
position. -/
def Relabels {β : Type} (a a' : Array β) : Prop := ∀ i, a'[π i]? = a[i]?

variable {π} {β : Type} {a a' : Array β}

theorem relabels_replicate (v : β) :
    π.Relabels (Array.replicate n v) (Array.replicate n v) := by
  intro i
  simp only [Array.getElem?_replicate, π.lt_iff]

theorem Relabels.map {γ : Type} (h : π.Relabels a a') (f : β → γ) :
    π.Relabels (a.map f) (a'.map f) := by
  intro i
  rw [Array.getElem?_map, Array.getElem?_map, h i]

theorem Relabels.setIfInBounds (h : π.Relabels a a') (k : Nat) (v : β) :
    π.Relabels (a.setIfInBounds k v) (a'.setIfInBounds (π k) v) := by
  intro i
  rw [Array.getElem?_setIfInBounds, Array.getElem?_setIfInBounds]
  by_cases hki : k = i
  · subst hki
    have hsize : a'.size ≤ π k ↔ a.size ≤ k := by
      rw [← Array.getElem?_eq_none_iff, ← Array.getElem?_eq_none_iff, h k]
    simp only [if_true, ← Nat.not_le, hsize]
  · rw [if_neg hki, if_neg fun heq => hki (π.injective heq), h i]

/-- Tables over the first `n` positions hold the same values, in another order. -/
theorem Relabels.toList_perm (h : π.Relabels a a') (hsize : a.size = n) (hsize' : a'.size = n) :
    a'.toList.Perm a.toList := by
  -- Entries are compared as options, so that out of range needs no case of its own.
  have hlist : ∀ b : Array β, b.size = n → b.toList.map some = (List.range n).map (b[·]?) := by
    intro b hb
    apply List.ext_getElem
    · simp [hb]
    · intro i hi hi'
      simp
  have hsome : (a'.toList.map some).Perm (a.toList.map some) := by
    rw [hlist a hsize, hlist a' hsize']
    refine (π.range_perm.map (a'[·]?)).trans (List.Perm.of_eq ?_)
    rw [List.map_map]
    exact List.map_congr_left fun i _ => h i
  exact (List.map_perm_map_iff (Option.some_injective β)).mp hsome

end Renaming

/-! ### Graphs -/

/-- What tells entities apart when degrees are counted and nothing is said about
where they were declared. -/
def Entity.label (e : Entity) : String × String × String := (e.id, e.name, e.group)

namespace Graph

/-- Two graphs have the same entities, by id, name and group, and the same edges, by
the ids they join. Neither the order in which entities and edges were added nor the
lines of the edges matter. -/
structure SameCalls (g g' : Graph) : Prop where
  labels_iff : ∀ label, (∃ e ∈ g'.entities, e.label = label) ↔ ∃ e ∈ g.entities, e.label = label
  hasEdge_eq : ∀ s t, g'.hasEdge s t = g.hasEdge s t

/-- Graphs with their positions renamed. -/
structure RenamedBy (g g' : Graph) (π : Renaming g.entityCount) : Prop where
  wellFormed : g.WellFormed
  wellFormed' : g'.WellFormed
  count_eq : g'.entityCount = g.entityCount
  label_eq : ∀ i, (g'.node (π i)).label = (g.node i).label
  linked_eq : ∀ i j, g'.linked (π i) (π j) = g.linked i j

theorem node_of_le {g : Graph} {i : Nat} (hi : g.entityCount ≤ i) : g.node i = default := by
  unfold node
  rw [Array.getElem?_eq_none hi, Option.getD_none]

/-- Where the entity at a position of `g` stands in `g'`. -/
def counterpart (g g' : Graph) (i : Nat) : Nat :=
  if i < g.entityCount then (g'.indexOf? (g.node i).id).getD i else i

namespace SameCalls

variable {g g' : Graph} (h : SameCalls g g') (hg : g.WellFormed) (hg' : g'.WellFormed)

include h hg'

theorem counterpart_spec {i : Nat} (hi : i < g.entityCount) :
    g.counterpart g' i < g'.entityCount ∧
      (g'.node (g.counterpart g' i)).label = (g.node i).label := by
  obtain ⟨e, he, hlabel⟩ := (h.labels_iff (g.node i).label).mpr
    ⟨g.node i, mem_entities.mpr ⟨i, hi, rfl⟩, rfl⟩
  obtain ⟨j, hj, rfl⟩ := mem_entities.mp he
  have hid : (g'.node j).id = (g.node i).id := congrArg Prod.fst hlabel
  have heq : g.counterpart g' i = j := by
    unfold counterpart
    rw [if_pos hi, ← hid, hg'.indexOf?_node hj, Option.getD_some]
  rw [heq]
  exact ⟨hj, hlabel⟩

include hg

/-- Both graphs have every label once. -/
theorem count_eq : g'.entityCount = g.entityCount := by
  have hnd : ∀ g : Graph, g.WellFormed → (g.entities.toList.map Entity.label).Nodup := by
    intro g hg
    have hids : (g.entities.toList.map Entity.label).map Prod.fst =
        g.entities.toList.map Entity.id := List.map_map
    exact List.Nodup.of_map Prod.fst (hids ▸ hg.distinctIds)
  have hperm : (g'.entities.toList.map Entity.label).Perm (g.entities.toList.map Entity.label) := by
    rw [List.perm_ext_iff_of_nodup (hnd g' hg') (hnd g hg)]
    intro label
    simpa only [List.mem_map, Array.mem_toList_iff] using h.labels_iff label
  simpa [entityCount] using hperm.length_eq

/-- **Graphs with the same calls differ in their positions only.** -/
theorem exists_renaming : ∃ π : Renaming g.entityCount, g.RenamedBy g' π := by
  have hcount := h.count_eq hg hg'
  -- Past the end the renaming does nothing, and both graphs have the empty entity there.
  have hspec := fun {i} => h.counterpart_spec hg' (i := i)
  have hself : ∀ {i}, ¬ i < g.entityCount → g.counterpart g' i = i := fun hi => if_neg hi
  have hlt : ∀ i, g.counterpart g' i < g.entityCount ↔ i < g.entityCount := by
    intro i
    by_cases hi : i < g.entityCount
    · exact iff_of_true (hcount ▸ (hspec hi).1) hi
    · rw [hself hi]
  have hlabel : ∀ i, (g'.node (g.counterpart g' i)).label = (g.node i).label := by
    intro i
    by_cases hi : i < g.entityCount
    · exact (hspec hi).2
    · rw [hself hi, node_of_le (Nat.le_of_not_lt hi), node_of_le (hcount ▸ Nat.le_of_not_lt hi)]
  have hinj : Function.Injective (g.counterpart g') := by
    intro i j hij
    have hiff := hlt i
    rw [hij, hlt j] at hiff
    by_cases hi : i < g.entityCount
    · have hlabels : (g.node i).label = (g.node j).label := by
        rw [← hlabel i, ← hlabel j, hij]
      exact hg.node_id_inj hi (hiff.mpr hi) (congrArg Prod.fst hlabels)
    · rw [hself hi, hself (mt hiff.mp hi)] at hij
      exact hij
  refine ⟨⟨g.counterpart g', hinj, hlt⟩, hg, hg', hcount, hlabel, ?_⟩
  intro i j
  have hid : ∀ k, (g'.node (g.counterpart g' k)).id = (g.node k).id :=
    fun k => congrArg Prod.fst (hlabel k)
  rw [Bool.eq_iff_iff, hg'.linked_iff_hasEdge, hg.linked_iff_hasEdge, hcount]
  simp only [hlt, hid, h.hasEdge_eq]

end SameCalls

namespace RenamedBy

variable {g g' : Graph} {π : Renaming g.entityCount} (h : g.RenamedBy g' π)

include h

theorem id_eq (i : Nat) : (g'.node (π i)).id = (g.node i).id := congrArg Prod.fst (h.label_eq i)

theorem name_eq (i : Nat) : (g'.node (π i)).name = (g.node i).name :=
  congrArg (·.2.1) (h.label_eq i)

theorem group_eq (i : Nat) : (g'.node (π i)).group = (g.node i).group :=
  congrArg (·.2.2) (h.label_eq i)

theorem lt_iff (i : Nat) : π i < g'.entityCount ↔ i < g.entityCount := by
  rw [h.count_eq]
  exact π.lt_iff i

theorem exists_eq {j : Nat} (hj : j < g'.entityCount) : ∃ i < g.entityCount, π i = j := by
  rw [h.count_eq] at hj
  exact π.exists_eq hj

theorem range_perm : (List.range g'.entityCount).Perm ((List.range g.entityCount).map π) := by
  rw [h.count_eq]
  exact π.range_perm

/-! ### Links -/

theorem step_iff {d : Direction} {i j : Nat} : g'.Step d (π i) (π j) ↔ g.Step d i j := by
  cases d <;> simp only [Step, h.linked_eq]

theorem neighbours_perm (d : Direction) (i : Nat) :
    (g'.neighbours d (π i)).Perm ((g.neighbours d i).map π) := by
  rw [List.perm_ext_iff_of_nodup (h.wellFormed'.nodup_neighbours d _)
    ((h.wellFormed.nodup_neighbours d i).map π.injective)]
  intro j
  rw [mem_neighbours, List.mem_map]
  constructor
  · intro hstep
    -- A neighbour is a position of the graph, so something has been renamed to it.
    obtain ⟨k, _, rfl⟩ := h.exists_eq (h.wellFormed'.step_lt hstep).2
    exact ⟨k, mem_neighbours.mpr (h.step_iff.mp hstep), rfl⟩
  · intro hmem
    obtain ⟨k, hk, rfl⟩ := hmem
    exact h.step_iff.mpr (mem_neighbours.mp hk)

/-- The pairs that are linked, renamed, are those of the other graph. -/
theorem pairs_perm :
    (g'.links.toList.map Link.pair).Perm
      ((g.links.toList.map Link.pair).map fun p => (π p.1, π p.2)) := by
  have hinj : Function.Injective fun p : Nat × Nat => (π p.1, π p.2) := by
    intro p q hpq
    obtain ⟨hfst, hsnd⟩ := Prod.mk.inj hpq
    exact Prod.ext (π.injective hfst) (π.injective hsnd)
  rw [List.perm_ext_iff_of_nodup h.wellFormed'.pairs_nodup (h.wellFormed.pairs_nodup.map hinj)]
  intro p
  rw [mem_pairs_iff, List.mem_map]
  constructor
  · intro hlinked
    obtain ⟨hs, ht⟩ := h.wellFormed'.step_lt (d := .downstream) hlinked
    obtain ⟨i, _, hi⟩ := h.exists_eq hs
    obtain ⟨j, _, hj⟩ := h.exists_eq ht
    refine ⟨(i, j), mem_pairs_iff.mpr ?_, Prod.ext hi hj⟩
    rw [← h.linked_eq, hi, hj]
    exact hlinked
  · intro hp
    obtain ⟨q, hq, rfl⟩ := hp
    exact (h.linked_eq q.1 q.2).trans (mem_pairs_iff.mp hq)

/-- An entity has the same degrees in both graphs. -/
theorem degree_eq (d : Direction) (i : Nat) : (g'.node (π i)).degree d = (g.node i).degree d := by
  by_cases hi : i < g.entityCount
  · rw [h.wellFormed.degree_eq d i hi, h.wellFormed'.degree_eq d (π i) ((h.lt_iff i).mpr hi),
      (h.neighbours_perm d i).length_eq, List.length_map]
  · rw [node_of_le (Nat.le_of_not_lt hi), node_of_le (Nat.le_of_not_lt (mt (h.lt_iff i).mp hi))]

/-! ### Sorted views -/

/-- **Positions that are sorted by id are renamed item by item**, whatever order
they were in. -/
theorem sortedById_eq {is js : List Nat} (hperm : js.Perm (is.map π))
    (hlt : ∀ i ∈ is, i < g.entityCount) : g'.sortedById js = (g.sortedById is).map π := by
  have hlt' : ∀ j ∈ js, j < g'.entityCount := by
    intro j hj
    obtain ⟨i, hi, rfl⟩ := List.mem_map.mp (hperm.mem_iff.mp hj)
    exact (h.lt_iff i).mpr (hlt i hi)
  rw [h.wellFormed'.sortedById_eq_of_perm hperm hlt']
  unfold sortedById
  refine (List.map_mergeSort fun i _ j _ => ?_).symm
  rw [h.id_eq, h.id_eq]

/-- All positions by id. -/
theorem sortedById_range :
    g'.sortedById (List.range g'.entityCount) = (g.sortedById (List.range g.entityCount)).map π :=
  h.sortedById_eq h.range_perm fun _ hi => List.mem_range.mp hi

theorem groups_eq : g'.groups = g.groups := by
  unfold groups
  apply distinctSorted_perm
  rw [toList_entities, toList_entities, List.map_map, List.map_map]
  refine (h.range_perm.map _).trans (List.Perm.of_eq ?_)
  rw [List.map_map]
  exact List.map_congr_left fun i _ => h.group_eq i

end RenamedBy

end Graph

end CallAtlas
