import Mathlib
import CallAtlas.Proofs.Layout.Crossing
import CallAtlas.Proofs.Layout.Spots
import CallAtlas.Proofs.Layout.Staging

/-!
# A layout is a partition

A layout has a position for every entity of the graph and no other, a lane for every group
and no other, and in each lane columns that are filled one after the other in the order of
the ranks. `Layout.Partition` says this in terms of what a layout shows, its positions,
lanes and metrics, and of the entities of the graph. Nothing in it depends on the
arithmetic of the coordinates, which is left open; only the order of the lanes compares
quotients, and is that of exact means where quotients are exact (`Layout.InOrder`).

That the counts agree comes from one fact about positions and ranks (`placeAt_iff`): every
count of a lane, a column or a stage is a count of the positions that show it.
-/

namespace CallAtlas

variable {α : Type} [Coordinate α]

/-! ### What a layout promises -/

/-- The rank of an entity: how many entities of its group come before it. -/
def Graph.rankOf (g : Graph) (e : Entity) : Nat :=
  g.entities.toList.countP fun a => a.group = e.group ∧ a.Before e

namespace Layout

/-- A lane of a layout holds the entities of its group, in columns of one size, as a
ranking of them says. -/
structure PacksLane (g : Graph) (s : LayoutSettings α) (l : Layout α) (k : Nat)
    (lane : LaneGeometry α) (ranking : List Entity) : Prop where
  /-- Each entity of the group is ranked, once. -/
  sorted : ranking.Pairwise Entity.Before
  mem_iff : ∀ e, e ∈ ranking ↔ e ∈ g.entities ∧ e.group = lane.name
  index_eq : lane.index = k
  nodeCount_eq : lane.nodeCount = ranking.length
  totalOutDegree_eq : lane.totalOutDegree = (ranking.map (·.outDegree)).sum
  columnCount_eq : lane.columnCount = lane.nodeCount ⌈/⌉ max 1 s.maxNodesPerColumn
  bandCount_eq : lane.bandCount = lane.columnCount ⌈/⌉ max 1 s.maxColumnsPerGroup
  /-- A column is a piece of the ranking. -/
  column_perm : ∀ c, (l.column k c).Perm
    (((ranking.drop (c * max 1 s.maxNodesPerColumn)).take (max 1 s.maxNodesPerColumn)).map (·.id))
  /-- Every column but the last is full. -/
  length_column : ∀ c, c + 1 < lane.columnCount → (l.column k c).length = max 1 s.maxNodesPerColumn
  column_ne_nil_iff : ∀ c, l.column k c ≠ [] ↔ c < lane.columnCount

/-- The positions of a layout are those of the entities of a graph, lane by lane and
column by column, and its counts are those that the positions show. -/
structure Partition (g : Graph) (s : LayoutSettings α) (l : Layout α) : Prop where
  /-- Each entity has one position, and there are no others. -/
  ids_perm : (l.positions.map (·.1)).Perm (g.entities.toList.map (·.id))
  ids_nodup : (l.positions.map (·.1)).Nodup
  /-- Each group has one lane, and there are no others. -/
  names_nodup : (l.groups.map (·.name)).Nodup
  mem_names_iff : ∀ name, name ∈ l.groups.map (·.name) ↔ ∃ e ∈ g.entities, e.group = name
  /-- An entity stands in the lane of its group, in the column that its rank tells. -/
  position : ∀ e ∈ g.entities, ∃ p lane, l.position? e.id = some p ∧
    l.groups[p.groupIndex]? = some lane ∧ lane.name = e.group ∧
    p.columnIndex = g.rankOf e / max 1 s.maxNodesPerColumn
  packsLane : ∀ k lane, l.groups[k]? = some lane → ∃ ranking, l.PacksLane g s k lane ranking
  nodeCount_eq : ∀ k lane, l.groups[k]? = some lane →
    lane.nodeCount = l.positions.countP (·.2.groupIndex == k)
  groupCount_eq : l.metrics.groupCount = l.groups.length
  /-- As many columns are counted as can be told apart by the positions. -/
  columnCount_eq : l.metrics.columnCount =
    (l.positions.map fun p => (p.2.groupIndex, p.2.columnIndex)).dedup.length
  sum_columnCount : (l.groups.map (·.columnCount)).sum = l.metrics.columnCount
  /-- The groups are counted in the order of their names. -/
  nodesPerGroup_perm : l.metrics.nodesPerGroup.Perm
    (l.groups.map fun lane => (lane.name, lane.nodeCount))
  nodesPerGroup_sorted : (l.metrics.nodesPerGroup.map (·.1)).Pairwise (· < ·)
  nodesPerStage_eq : l.metrics.nodesPerStage =
    (List.range l.metrics.stageCount).map fun k => l.positions.countP (·.2.stageIndex == k)
  sum_nodeCount : (l.groups.map (·.nodeCount)).sum = l.positions.length
  sum_nodesPerGroup : (l.metrics.nodesPerGroup.map (·.2)).sum = l.positions.length
  sum_nodesPerStage : l.metrics.nodesPerStage.sum = l.positions.length

end Layout

/-- What lanes are ordered by: the mean, then the total out-degree, then the name. -/
def LaneGeometry.weight (lane : LaneGeometry ℝ) : ℝ ×ₗ ℕ ×ₗ String :=
  toLex (lane.meanOutDegree, toLex (lane.totalOutDegree, lane.name))

/-- What a lane of the graph is ordered by. -/
def Lane.weight (lane : Lane ℝ) : ℝ ×ₗ ℕ ×ₗ String :=
  toLex (lane.meanOutDegree, toLex (lane.totalOutDegree, lane.name))

/-- The lanes of a layout without rounding are in order, by exact means. -/
structure Layout.InOrder (l : Layout ℝ) : Prop where
  meanOutDegree_eq : ∀ lane ∈ l.groups,
    lane.meanOutDegree = (lane.totalOutDegree : ℝ) / (lane.nodeCount : ℝ)
  sorted : (l.groups.map LaneGeometry.weight).Pairwise (· < ·)

/-! ### Counting -/

/-- What is numbered below a bound is counted once if it is counted number by number. -/
theorem sum_countP_range {β : Type} {bs : List β} {f : β → Nat} {n : Nat}
    (h : ∀ b ∈ bs, f b < n) :
    ((List.range n).map fun k => bs.countP (f · == k)).sum = bs.length := by
  -- As a sum over a finite set, it can be taken apart item by item.
  change ∑ k ∈ Finset.range n, bs.countP (f · == k) = bs.length
  induction bs with
  | nil => simp
  | cons b bs ih =>
      obtain ⟨hb, hbs⟩ := List.forall_mem_cons.mp h
      have hmem : f b ∈ Finset.range n := Finset.mem_range.mpr hb
      simp only [List.countP_cons, Finset.sum_add_distrib, List.length_cons, beq_iff_eq]
      rw [ih hbs, Finset.sum_ite_eq, if_pos hmem]

/-- A running maximum is the largest of the values and the start. -/
theorem isGreatest_foldl_max {β : Type} (f : β → Nat) (bs : List β) (m : Nat) :
    IsGreatest (insert m {n | ∃ b ∈ bs, f b = n}) (bs.foldl (fun m b => max m (f b)) m) := by
  induction bs generalizing m with
  | nil => simp
  | cons b bs ih =>
      rw [List.foldl_cons]
      obtain ⟨hmem, hle⟩ := ih (max m (f b))
      constructor
      · rcases hmem with heq | ⟨c, hc, heq⟩
        · rw [heq]
          rcases max_choice m (f b) with hmax | hmax
          · exact Or.inl hmax
          · exact Or.inr ⟨b, List.mem_cons_self, hmax.symm⟩
        · exact Or.inr ⟨c, List.mem_cons_of_mem b hc, heq⟩
      · have hstart := hle (Or.inl rfl)
        rintro n (rfl | ⟨c, hc, rfl⟩)
        · exact le_trans (le_max_left _ _) hstart
        · rcases List.mem_cons.mp hc with rfl | hc
          · exact le_trans (le_max_right _ _) hstart
          · exact hle (Or.inr ⟨c, hc, rfl⟩)

namespace Staging

theorem stage_lt_count {st : Staging} {i : Nat} (hi : i < st.stages.size) :
    st.stage i < st.count := by
  unfold stage count
  rw [Array.getElem?_eq_getElem hi, Option.getD_some, ← Array.foldl_toList]
  exact (isGreatest_foldl_max (· + 1) st.stages.toList 0).2
    (Or.inr ⟨_, Array.mem_toList_iff.mpr (Array.getElem_mem hi), rfl⟩)

end Staging

namespace Layout

variable {l : Layout α}

/-- A column holds someone if some position is in it. -/
theorem column_ne_nil_iff_mem {k c : Nat} :
    l.column k c ≠ [] ↔ (k, c) ∈ l.positions.map fun p => (p.2.groupIndex, p.2.columnIndex) := by
  unfold column
  rw [ne_eq, List.map_eq_nil_iff, ← List.length_eq_zero_iff, List.length_mergeSort,
    List.length_eq_zero_iff, List.filter_eq_nil_iff]
  simp

/-- The columns of a layout, lane by lane: the index of the lane and that of the column. -/
def columnIndices (l : Layout α) : List (Nat × Nat) :=
  l.groups.zipIdx.flatMap fun x => (List.range x.1.columnCount).map fun c => (x.2, c)

omit [Coordinate α] in
theorem mem_columnIndices {k c : Nat} :
    (k, c) ∈ l.columnIndices ↔ ∃ lane, l.groups[k]? = some lane ∧ c < lane.columnCount := by
  simp only [columnIndices, List.mem_flatMap, List.mem_map, List.mem_range, Prod.exists,
    List.mem_zipIdx_iff_getElem?, Prod.mk.injEq]
  constructor
  · rintro ⟨lane, _, hlane, _, hc, rfl, rfl⟩
    exact ⟨lane, hlane, hc⟩
  · rintro ⟨lane, hlane, hc⟩
    exact ⟨lane, k, hlane, c, hc, rfl, rfl⟩

omit [Coordinate α] in
theorem length_columnIndices : l.columnIndices.length = (l.groups.map (·.columnCount)).sum := by
  unfold columnIndices
  rw [List.length_flatMap]
  conv_rhs => rw [← List.zipIdx_map_fst 0 l.groups, List.map_map]
  simp [Function.comp_def]

omit [Coordinate α] in
theorem nodup_columnIndices : l.columnIndices.Nodup := by
  have hindex : l.groups.zipIdx.Pairwise fun x y => x.2 ≠ y.2 := by
    rw [← List.pairwise_map (f := Prod.snd), List.zipIdx_map_snd]
    exact List.nodup_range'
  unfold columnIndices
  rw [List.nodup_flatMap]
  refine ⟨fun x _ => List.nodup_range.map fun c c' h => (Prod.mk.inj h).2, hindex.imp ?_⟩
  intro x y hne p hx hy
  obtain ⟨_, _, rfl⟩ := List.mem_map.mp hx
  obtain ⟨_, _, heq⟩ := List.mem_map.mp hy
  exact hne (Prod.mk.inj heq).1.symm

end Layout

namespace Graph

/-! ### What the layout of any graph shows -/

theorem groups_eq_nil {g : Graph} (h : g.entityCount = 0) : g.groups = [] := by
  rw [List.eq_nil_iff_forall_not_mem]
  intro name hname
  obtain ⟨i, hi, _⟩ := mem_groups.mp hname
  omega

theorem lanes_eq_nil {g : Graph} (h : g.entityCount = 0) : g.lanes (α := α) = [] := by
  have hperm := g.names_lanes_perm (α := α)
  rw [groups_eq_nil h, List.perm_nil, List.map_eq_nil_iff] at hperm
  exact hperm

theorem layout_cases (g : Graph) (s : LayoutSettings α) :
    (g.entityCount = 0 ∧ g.layout s = .empty) ∨
      g.layout s =
        { positions := (g.sortedById (List.range g.entityCount)).map fun i =>
            ((g.node i).id, g.positionAt s i)
          groups := (g.stagedCanvas s).lanes
          metrics := g.metricsOf s } := by
  cases h : g.isEmpty with
  | false => exact Or.inr (layout_of_nonempty h s)
  | true =>
      refine Or.inl ⟨?_, layout_of_isEmpty h s⟩
      rw [isEmpty, Array.isEmpty_iff_size_eq_zero] at h
      exact h

theorem positions_layout (g : Graph) (s : LayoutSettings α) :
    (g.layout s).positions = (g.sortedById (List.range g.entityCount)).map fun i =>
      ((g.node i).id, g.positionAt s i) := by
  rcases g.layout_cases s with ⟨hcount, hlayout⟩ | hlayout
  · rw [hlayout, hcount]
    simp [Layout.empty, sortedById]
  · rw [hlayout]

theorem groups_layout (g : Graph) (s : LayoutSettings α) :
    (g.layout s).groups = (g.stagedCanvas s).lanes := by
  rcases g.layout_cases s with ⟨hcount, hlayout⟩ | hlayout
  · have hnil := g.map_flat_lanes s
    rw [lanes_eq_nil hcount, List.zipIdx_nil, List.map_nil, List.map_eq_nil_iff] at hnil
    rw [hlayout, hnil]
    rfl
  · rw [hlayout]

theorem counts_layout (g : Graph) (s : LayoutSettings α) :
    (g.layout s).metrics.groupCount = (g.metricsOf s).groupCount ∧
    (g.layout s).metrics.stageCount = (g.metricsOf s).stageCount ∧
    (g.layout s).metrics.columnCount = (g.metricsOf s).columnCount ∧
    (g.layout s).metrics.nodesPerGroup = (g.metricsOf s).nodesPerGroup ∧
    (g.layout s).metrics.nodesPerStage = (g.metricsOf s).nodesPerStage := by
  rcases g.layout_cases s with ⟨hcount, hlayout⟩ | hlayout
  · -- The metrics of a graph without entities are set down, not counted; they agree.
    have hlanes : (g.stagedCanvas s).lanes = [] := by
      rw [← groups_layout, hlayout]
      rfl
    have hstages : g.staging.count = 0 := by
      simp [staging, hcount, sortedById, Staging.start, Staging.count]
    simp [hlayout, Layout.empty, metricsOf, hlanes, hstages]
  · rw [hlayout]
    simp

/-- Counting over the positions is counting over the graph. -/
theorem countP_positions (g : Graph) (s : LayoutSettings α) (p : String × Position α → Bool) :
    (g.layout s).positions.countP p =
      (List.range g.entityCount).countP fun i => p ((g.node i).id, g.positionAt s i) := by
  rw [positions_layout, List.countP_map, (g.sortedById_perm _).countP_eq]
  rfl

/-- A lane of the layout is the lane of the graph at the same index. -/
theorem getElem?_groups_layout (g : Graph) (s : LayoutSettings α) (k : Nat) :
    (g.layout s).groups[k]?.map LaneGeometry.flat = g.lanes[k]?.map (g.flatLane s k) := by
  have hflat := congrArg (·[k]?) (g.map_flat_lanes s)
  simp only [List.getElem?_map, List.getElem?_zipIdx, Nat.zero_add, Option.map_map] at hflat
  rw [groups_layout, hflat]
  rfl

theorem exists_lane {g : Graph} {s : LayoutSettings α} {k : Nat} {geometry : LaneGeometry α}
    (h : (g.layout s).groups[k]? = some geometry) :
    ∃ lane, g.lanes[k]? = some lane ∧ g.flatLane s k lane = geometry.flat := by
  have hflat := g.getElem?_groups_layout s k
  rw [h, Option.map_some, eq_comm, Option.map_eq_some_iff] at hflat
  exact hflat

theorem exists_geometry {g : Graph} (s : LayoutSettings α) {k : Nat} {lane : Lane α}
    (h : g.lanes[k]? = some lane) :
    ∃ geometry, (g.layout s).groups[k]? = some geometry ∧ geometry.flat = g.flatLane s k lane := by
  have hflat := g.getElem?_groups_layout s k
  rw [h, Option.map_some, Option.map_eq_some_iff] at hflat
  exact hflat

/-- What a lane of the layout has from the lane of the graph can be read off the graph. -/
theorem map_groups_layout {β : Type} (g : Graph) (s : LayoutSettings α) {f : LaneGeometry α → β}
    {f' : Lane α → β} (hflat : ∀ lane, f lane.flat = f lane)
    (hlane : ∀ k lane, f (g.flatLane s k lane) = f' lane) :
    (g.layout s).groups.map f = g.lanes.map f' := by
  have h := congrArg (List.map f) (g.map_flat_lanes s)
  simp only [List.map_map, Function.comp_def, hflat, hlane] at h
  rw [groups_layout, h, ← List.zipIdx_map_fst 0 (g.lanes (α := α)), List.map_map,
    List.zipIdx_map_fst]
  rfl

theorem names_layout (g : Graph) (s : LayoutSettings α) :
    (g.layout s).groups.map (·.name) = (g.lanes (α := α)).map (·.name) :=
  g.map_groups_layout s (fun _ => rfl) fun _ _ => rfl

/-! ### Columns as the positions show them -/

theorem column_layout_perm (g : Graph) (s : LayoutSettings α) (k c : Nat) :
    ((g.layout s).column k c).Perm
      (((List.range g.entityCount).filter fun i => (g.placeAt s i).groupIndex == k &&
        (g.placeAt s i).columnIndex == c).map fun i => (g.node i).id) := by
  unfold Layout.column
  refine ((List.mergeSort_perm _ _).map _).trans ?_
  rw [positions_layout, List.filter_map, List.map_map]
  exact ((g.sortedById_perm _).filter _).map _

/-- The column of a lane at an index is the piece of its ranking at that index. -/
theorem column_perm_chunk {g : Graph} (s : LayoutSettings α) {k : Nat} {lane : Lane α}
    (hk : g.lanes[k]? = some lane) (c : Nat) :
    ((g.layout s).column k c).Perm
      (((((g.ranked lane.members).map g.node).drop (c * max 1 s.maxNodesPerColumn)).take
        (max 1 s.maxNodesPerColumn)).map (·.id)) := by
  have hlane := List.mem_of_getElem? hk
  have hnodup : (g.ranked lane.members).Nodup :=
    (g.ranked_perm _).nodup_iff.mpr (nodup_members hlane)
  refine (g.column_layout_perm s k c).trans ?_
  rw [← List.map_drop, ← List.map_take, List.map_map]
  refine List.Perm.map _ ?_
  -- Nobody is listed twice on either side, so all that counts is who is listed.
  rw [List.perm_ext_iff_of_nodup (List.nodup_range.filter _)
    ((hnodup.sublist (List.drop_sublist _ _)).sublist (List.take_sublist _ _))]
  intro i
  rw [List.mem_filter, List.mem_range, Bool.and_eq_true, beq_iff_eq, beq_iff_eq]
  constructor
  · rintro ⟨hi, hplace⟩
    exact (placeAt_iff hk hi).mp hplace
  · intro hi
    have hmem := (g.ranked_perm _).mem_iff.mp (List.mem_of_mem_drop (List.mem_of_mem_take hi))
    have hlt := ((mem_members hlane).mp hmem).1
    exact ⟨hlt, (placeAt_iff hk hlt).mpr hi⟩

theorem length_column_layout {g : Graph} (s : LayoutSettings α) {k : Nat} {lane : Lane α}
    (hk : g.lanes[k]? = some lane) (c : Nat) :
    ((g.layout s).column k c).length =
      min (max 1 s.maxNodesPerColumn) (lane.members.length - c * max 1 s.maxNodesPerColumn) := by
  rw [(column_perm_chunk s hk c).length_eq, List.length_map, List.length_take, List.length_drop,
    List.length_map, (g.ranked_perm _).length_eq]

theorem groupIndex_iff {g : Graph} {s : LayoutSettings α} {i k : Nat} {lane : Lane α}
    (hlane : g.lanes[k]? = some lane) (hi : i < g.entityCount) :
    (g.placeAt s i).groupIndex = k ↔ i ∈ lane.members := by
  rw [← (g.ranked_perm lane.members).mem_iff, List.mem_iff_getElem?]
  constructor
  · intro hk
    have h := (placeAt_iff (c := (g.placeAt s i).columnIndex) hlane hi).mp ⟨hk, rfl⟩
    exact List.mem_iff_getElem?.mp (List.mem_of_mem_drop (List.mem_of_mem_take h))
  · rintro ⟨r, hr⟩
    exact (placeAt_of_ranked s hlane hr).1

/-- The number of members of a lane is the number of positions in it. -/
theorem countP_groupIndex {g : Graph} (s : LayoutSettings α) {k : Nat} {lane : Lane α}
    (hk : g.lanes[k]? = some lane) :
    (g.layout s).positions.countP (·.2.groupIndex == k) = lane.members.length := by
  have hlane := List.mem_of_getElem? hk
  rw [countP_positions, List.countP_eq_length_filter]
  apply List.Perm.length_eq
  rw [List.perm_ext_iff_of_nodup (List.nodup_range.filter _) (nodup_members hlane)]
  intro i
  rw [List.mem_filter, List.mem_range, beq_iff_eq]
  constructor
  · rintro ⟨hi, hindex⟩
    exact (groupIndex_iff hk hi).mp hindex
  · intro hi
    have hlt := ((mem_members hlane).mp hi).1
    exact ⟨hlt, (groupIndex_iff hk hlt).mpr hi⟩

/-- The lane at an index holds what its ranking says. -/
theorem WellFormed.packsLane {g : Graph} (hg : g.WellFormed) (s : LayoutSettings α) {k : Nat}
    {geometry : LaneGeometry α} (h : (g.layout s).groups[k]? = some geometry) :
    ∃ ranking, (g.layout s).PacksLane g s k geometry ranking := by
  obtain ⟨lane, hk, hflat⟩ := exists_lane h
  have hlane := List.mem_of_getElem? hk
  have hpos : 0 < max 1 s.maxNodesPerColumn := by omega
  have hname : lane.name = geometry.name := congrArg LaneGeometry.name hflat
  have hnodes : lane.members.length = geometry.nodeCount := congrArg LaneGeometry.nodeCount hflat
  have htotal : lane.totalOutDegree = geometry.totalOutDegree :=
    congrArg LaneGeometry.totalOutDegree hflat
  have hcolumns := g.columnCount_flatLane s k lane
  have hbands := g.bandCount_flatLane s k lane
  rw [hflat] at hcolumns hbands
  change geometry.columnCount = _ at hcolumns
  exact ⟨(g.ranked lane.members).map g.node, {
    sorted := hg.pairwise_ranking hlane
    mem_iff := by
      intro e
      rw [(ranking_perm hlane).mem_iff, List.mem_filter, Array.mem_toList_iff, beq_iff_eq, hname]
    index_eq := (congrArg LaneGeometry.index hflat).symm
    nodeCount_eq := by rw [← hnodes, List.length_map, (g.ranked_perm _).length_eq]
    totalOutDegree_eq := htotal.symm.trans (totalOutDegree_eq_sum hlane)
    columnCount_eq := hnodes ▸ hcolumns
    bandCount_eq := hbands
    column_perm := column_perm_chunk s hk
    length_column := by
      intro c hc
      rw [hcolumns, lt_ceilDiv_iff hpos, Nat.succ_mul] at hc
      rw [length_column_layout s hk]
      omega
    column_ne_nil_iff := by
      intro c
      rw [hcolumns, lt_ceilDiv_iff hpos, ← List.length_pos_iff, length_column_layout s hk]
      omega }⟩

/-- The rank of an entity is its position in the ranking of its lane. -/
theorem WellFormed.rankOf_eq {g : Graph} (hg : g.WellFormed) {lane : Lane α}
    (hlane : lane ∈ g.lanes) {r i : Nat} (hr : (g.ranked lane.members)[r]? = some i)
    (hname : lane.name = (g.node i).group) : g.rankOf (g.node i) = r := by
  have hat : ((g.ranked lane.members).map g.node)[r]? = some (g.node i) := by
    rw [List.getElem?_map, hr, Option.map_some]
  rw [← countP_before (hg.pairwise_ranking hlane) hat, (ranking_perm hlane).countP_eq,
    List.countP_filter, hname]
  unfold rankOf
  apply List.countP_congr
  intro a _
  simp [and_comm]

/-- An entity stands in the lane of its group, in the column that its rank tells. -/
theorem WellFormed.position_layout {g : Graph} (hg : g.WellFormed) (s : LayoutSettings α)
    {i : Nat} (hi : i < g.entityCount) :
    ∃ lane, (g.layout s).groups[(g.positionAt s i).groupIndex]? = some lane ∧
      lane.name = (g.node i).group ∧
      (g.positionAt s i).columnIndex = g.rankOf (g.node i) / max 1 s.maxNodesPerColumn := by
  obtain ⟨k, lane, r, hlane, hname, hr⟩ := g.exists_ranked (α := α) hi
  obtain ⟨geometry, hgeometry, hflat⟩ := exists_geometry s hlane
  obtain ⟨hgroup, hcolumn⟩ := placeAt_of_ranked s hlane hr
  refine ⟨geometry, ?_, (congrArg LaneGeometry.name hflat).trans hname, ?_⟩
  · change (g.layout s).groups[(g.placeAt s i).groupIndex]? = _
    rw [hgroup, hgeometry]
  · rw [hg.rankOf_eq (List.mem_of_getElem? hlane) hr hname]
    exact hcolumn

/-! ### Counts -/

/-- Every position is that of an entity. -/
theorem mem_positions_layout {g : Graph} {s : LayoutSettings α} {p : String × Position α} :
    p ∈ (g.layout s).positions ↔ ∃ i < g.entityCount, p = ((g.node i).id, g.positionAt s i) := by
  rw [positions_layout, List.mem_map]
  simp only [mem_sortedById, List.mem_range, eq_comm (b := p)]

/-- The columns that can be told apart by the positions are those of the lanes. -/
theorem WellFormed.length_dedup_columns {g : Graph} (hg : g.WellFormed) (s : LayoutSettings α) :
    ((g.layout s).positions.map fun p => (p.2.groupIndex, p.2.columnIndex)).dedup.length =
      ((g.layout s).groups.map (·.columnCount)).sum := by
  rw [← Layout.length_columnIndices]
  apply List.Perm.length_eq
  rw [List.perm_ext_iff_of_nodup (List.nodup_dedup _) Layout.nodup_columnIndices]
  rintro ⟨k, c⟩
  rw [List.mem_dedup, ← Layout.column_ne_nil_iff_mem, Layout.mem_columnIndices]
  constructor
  · -- Whoever stands in the column has a lane, and the lane counts its columns.
    intro hne
    obtain ⟨p, hp, hpair⟩ := List.mem_map.mp (Layout.column_ne_nil_iff_mem.mp hne)
    obtain ⟨i, hi, rfl⟩ := mem_positions_layout.mp hp
    cases hpair
    obtain ⟨lane, hlane, _⟩ := hg.position_layout s hi
    obtain ⟨_, hpacks⟩ := hg.packsLane s hlane
    exact ⟨lane, hlane, (hpacks.column_ne_nil_iff _).mp hne⟩
  · rintro ⟨lane, hlane, hc⟩
    obtain ⟨_, hpacks⟩ := hg.packsLane s hlane
    exact (hpacks.column_ne_nil_iff _).mpr hc

theorem nodeCount_layout {g : Graph} {s : LayoutSettings α} {k : Nat} {geometry : LaneGeometry α}
    (h : (g.layout s).groups[k]? = some geometry) :
    geometry.nodeCount = (g.layout s).positions.countP (·.2.groupIndex == k) := by
  obtain ⟨lane, hlane, hflat⟩ := exists_lane h
  rw [countP_groupIndex s hlane]
  exact (congrArg LaneGeometry.nodeCount hflat).symm

theorem WellFormed.sum_nodeCount {g : Graph} (hg : g.WellFormed) (s : LayoutSettings α) :
    ((g.layout s).groups.map (·.nodeCount)).sum = (g.layout s).positions.length := by
  have hcounts : (g.layout s).groups.map (·.nodeCount) =
      (List.range (g.layout s).groups.length).map fun k =>
        (g.layout s).positions.countP (·.2.groupIndex == k) := by
    apply List.ext_getElem
    · simp
    · intro k hk _
      rw [List.getElem_map, List.getElem_map, List.getElem_range]
      rw [List.length_map] at hk
      exact nodeCount_layout (List.getElem?_eq_getElem hk)
  rw [hcounts, sum_countP_range]
  intro p hp
  obtain ⟨i, hi, rfl⟩ := mem_positions_layout.mp hp
  obtain ⟨lane, hlane, _⟩ := hg.position_layout s hi
  exact (List.getElem?_eq_some_iff.mp hlane).1

theorem nodesPerGroup_perm (g : Graph) (s : LayoutSettings α) :
    (g.layout s).metrics.nodesPerGroup.Perm
      ((g.layout s).groups.map fun lane => (lane.name, lane.nodeCount)) := by
  rw [(g.counts_layout s).2.2.2.1, groups_layout]
  exact List.mergeSort_perm _ _

theorem nodup_names_layout (g : Graph) (s : LayoutSettings α) :
    ((g.layout s).groups.map (·.name)).Nodup := by
  rw [names_layout]
  exact g.nodup_names_lanes

theorem nodesPerGroup_sorted (g : Graph) (s : LayoutSettings α) :
    ((g.layout s).metrics.nodesPerGroup.map (·.1)).Pairwise (· < ·) := by
  have hnodup : ((g.layout s).metrics.nodesPerGroup.map (·.1)).Nodup := by
    rw [((g.nodesPerGroup_perm s).map _).nodup_iff, List.map_map]
    exact g.nodup_names_layout s
  rw [(g.counts_layout s).2.2.2.1] at hnodup ⊢
  have hsorted : (g.metricsOf s).nodesPerGroup.Pairwise fun a b => (compare a.1 b.1).isLE = true :=
    pairwise_mergeSort_cmp (compareOn Prod.fst) _
  have hle : ((g.metricsOf s).nodesPerGroup.map (·.1)).Pairwise (· ≤ ·) :=
    List.pairwise_map.mpr (hsorted.imp fun h => Std.LawfulBCmp.isLE_iff_le.mp h)
  exact (hle.and hnodup).imp fun h => lt_of_le_of_ne h.1 h.2

theorem nodesPerStage_layout (g : Graph) (s : LayoutSettings α) :
    (g.layout s).metrics.nodesPerStage = (List.range (g.layout s).metrics.stageCount).map fun k =>
      (g.layout s).positions.countP (·.2.stageIndex == k) := by
  rw [(g.counts_layout s).2.2.2.2, (g.counts_layout s).2.1]
  refine List.map_congr_left fun k _ => ?_
  rw [countP_positions]
  rfl

theorem WellFormed.sum_nodesPerStage {g : Graph} (hg : g.WellFormed) (s : LayoutSettings α) :
    (g.layout s).metrics.nodesPerStage.sum = (g.layout s).positions.length := by
  rw [nodesPerStage_layout, sum_countP_range]
  intro p hp
  obtain ⟨i, hi, rfl⟩ := mem_positions_layout.mp hp
  rw [(g.counts_layout s).2.1]
  exact Staging.stage_lt_count (by rwa [hg.size_stages])

theorem ids_layout_perm (g : Graph) (s : LayoutSettings α) :
    ((g.layout s).positions.map (·.1)).Perm (g.entities.toList.map (·.id)) := by
  rw [positions_layout, List.map_map, toList_entities, List.map_map]
  exact (g.sortedById_perm _).map _

theorem WellFormed.partition_layout {g : Graph} (hg : g.WellFormed) (s : LayoutSettings α) :
    (g.layout s).Partition g s where
  ids_perm := g.ids_layout_perm s
  ids_nodup := (g.ids_layout_perm s).nodup_iff.mpr hg.distinctIds
  names_nodup := g.nodup_names_layout s
  mem_names_iff := by
    intro name
    rw [names_layout, g.names_lanes_perm.mem_iff, mem_groups]
    simp [mem_entities]
  position := by
    intro e he
    obtain ⟨i, hi, rfl⟩ := mem_entities.mp he
    obtain ⟨lane, hlane, hname, hcolumn⟩ := hg.position_layout s hi
    exact ⟨_, lane, hg.position?_layout s hi, hlane, hname, hcolumn⟩
  packsLane := fun _ _ => hg.packsLane s
  nodeCount_eq := fun _ _ => nodeCount_layout
  groupCount_eq := by
    rw [(g.counts_layout s).1, groups_layout]
    rfl
  columnCount_eq := by
    rw [hg.length_dedup_columns, (g.counts_layout s).2.2.1, groups_layout, List.sum_eq_foldl]
    rfl
  sum_columnCount := by
    rw [(g.counts_layout s).2.2.1, groups_layout, List.sum_eq_foldl]
    rfl
  nodesPerGroup_perm := g.nodesPerGroup_perm s
  nodesPerGroup_sorted := g.nodesPerGroup_sorted s
  nodesPerStage_eq := g.nodesPerStage_layout s
  sum_nodeCount := hg.sum_nodeCount s
  sum_nodesPerGroup := by
    rw [((g.nodesPerGroup_perm s).map _).sum_eq, List.map_map]
    exact hg.sum_nodeCount s
  sum_nodesPerStage := hg.sum_nodesPerStage s

/-! ### The order of the lanes -/

theorem pairwise_weight_lanes (g : Graph) :
    ((g.lanes (α := ℝ)).map Lane.weight).Pairwise (· < ·) := by
  have hsorted : (g.lanes (α := ℝ)).Pairwise fun a b => (compare a.weight b.weight).isLE = true :=
    pairwise_mergeSort_cmp (compareOn Lane.weight) _
  -- Lanes of equal weight would have one name.
  have hnodup := List.pairwise_map.mp (g.nodup_names_lanes (α := ℝ))
  refine List.pairwise_map.mpr ((hsorted.and hnodup).imp ?_)
  rintro a b ⟨hle, hne⟩
  replace hle := compare_le_iff_le.mp (Ordering.isLE_iff_ne_gt.mp hle)
  refine lt_of_le_of_ne hle fun heq => hne ?_
  exact congrArg (fun w => (ofLex (ofLex w).2).2) heq

theorem inOrder_layout (g : Graph) (s : LayoutSettings ℝ) : (g.layout s).InOrder where
  meanOutDegree_eq := by
    intro geometry hgeometry
    obtain ⟨k, hk⟩ := List.mem_iff_getElem?.mp hgeometry
    obtain ⟨lane, hlane, hflat⟩ := exists_lane hk
    have hmean : lane.meanOutDegree = geometry.meanOutDegree :=
      congrArg LaneGeometry.meanOutDegree hflat
    have htotal : lane.totalOutDegree = geometry.totalOutDegree :=
      congrArg LaneGeometry.totalOutDegree hflat
    have hcount : lane.members.length = geometry.nodeCount :=
      congrArg LaneGeometry.nodeCount hflat
    rw [← hmean, ← htotal, ← hcount, laneOf_of_mem (List.mem_of_getElem? hlane)]
    rfl
  sorted := by
    have hweights : (g.layout s).groups.map LaneGeometry.weight = g.lanes.map Lane.weight :=
      g.map_groups_layout s (fun _ => rfl) fun _ _ => rfl
    rw [hweights]
    exact g.pairwise_weight_lanes

/-- **A layout is a partition.** Whatever the settings, every entity has one position, in
the lane of its group and in the column that its rank tells, and the counts are those of
the positions. -/
theorem layout_partition {g : Graph} (hg : g.WellFormed) :
    (∀ (α : Type) [Coordinate α] (s : LayoutSettings α), (g.layout s).Partition g s) ∧
      ∀ s : LayoutSettings ℝ, (g.layout s).InOrder :=
  ⟨fun _ _ s => hg.partition_layout s, fun s => g.inOrder_layout s⟩

/-- Columns of capacity zero hold one entity each: in the ring, two functions make more
calls than the fourth, and the third is called less often. -/
theorem layout_partition_ring :
    ring.WellFormed ∧ ∃ p, (ring.layout { LayoutSettings.standard (α := ℝ) with
      maxNodesPerColumn := 0, maxColumnsPerGroup := 0 }).position? "m.js:d:1" = some p ∧
      p.columnIndex = 2 := by
  have hg : ring.WellFormed := wellFormed_ofInsertions _ _
  have hid : (ring.node 3).id = "m.js:d:1" := by decide +kernel
  have hrank : ring.rankOf (ring.node 3) = 2 := by decide +kernel
  have hmem : ring.node 3 ∈ ring.entities := mem_entities.mpr ⟨3, by decide +kernel, rfl⟩
  obtain ⟨p, _, hp, _, _, hcolumn⟩ := ((layout_partition hg).1 ℝ { LayoutSettings.standard with
      maxNodesPerColumn := 0, maxColumnsPerGroup := 0 }).position _ hmem
  rw [hid] at hp
  rw [hrank] at hcolumn
  exact ⟨hg, p, hp, hcolumn⟩

end Graph
end CallAtlas
