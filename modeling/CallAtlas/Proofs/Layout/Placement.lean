import Mathlib.Data.List.Nodup
import CallAtlas.Layout.Engine
import CallAtlas.Proofs.Graph.Adjacency
import CallAtlas.Proofs.Layout.Crossing
import CallAtlas.Proofs.Layout.Cutting

/-!
# Where the layout puts entities

`Graph.layout` is one long computation. It is cut here into named parts, in the
order they are worked out: the canvas, the table of places, the heights before the
crossing reduction, its outcome, the heights after it and the position of each
entity. `layout_of_nonempty` puts them together again, and everything else speaks
of the parts.

**Every entity of a lane is placed once.** Ranking, cutting into columns and
sorting a column by stage only rearrange the members of a lane
(`perm_nodes_laneColumns`), and the slots of a lane hold what is in its columns.
So no slot names an entity twice (`canvas_slots_proper`), which is what the crossing
reduction relies on.
-/

namespace CallAtlas

variable {α : Type} [Coordinate α]

/-! ### Cutting a list into pieces -/

theorem chunksUpTo_cons {β : Type} (size fuel : Nat) (x : β) (xs : List β) :
    chunksUpTo size (fuel + 1) (x :: xs) =
      (x :: xs).take size :: chunksUpTo size fuel ((x :: xs).drop size) := rfl

theorem flatten_chunksUpTo {β : Type} {size : Nat} (hsize : 0 < size) {fuel : Nat} :
    ∀ {xs : List β}, xs.length ≤ fuel → (chunksUpTo size fuel xs).flatten = xs := by
  induction fuel with
  | zero =>
      intro xs hlen
      rw [List.length_eq_zero_iff.mp (Nat.le_zero.mp hlen)]
      rfl
  | succ fuel ih =>
      intro xs hlen
      cases xs with
      | nil => rfl
      | cons x xs =>
          have hrest : ((x :: xs).drop size).length ≤ fuel := by
            rw [List.length_drop]
            omega
          rw [chunksUpTo_cons, List.flatten_cons, ih hrest, List.take_append_drop]

/-- Cutting a list into pieces loses nothing and keeps the order. -/
theorem flatten_chunks {β : Type} (size : Nat) (xs : List β) : (chunks size xs).flatten = xs :=
  flatten_chunksUpTo (Nat.lt_of_lt_of_le Nat.zero_lt_one (Nat.le_max_left 1 size)) (Nat.le_refl _)

/-! ### The columns of a lane -/

theorem rowsOf_perm (stage : Nat → Nat) (column : List Nat) : (rowsOf stage column).Perm column :=
  List.mergeSort_perm column _

theorem pairwise_rowsOf (stage : Nat → Nat) (column : List Nat) :
    (rowsOf stage column).Pairwise fun i j => stage i ≤ stage j := by
  have hsorted : (rowsOf stage column).Pairwise fun i j =>
      decide (stage i ≤ stage j) = true := by
    apply List.pairwise_mergeSort
    · intro i j k hij hjk
      simp only [decide_eq_true_eq] at *
      exact Nat.le_trans hij hjk
    · intro i j
      simpa using Nat.le_total (stage i) (stage j)
  exact hsorted.imp of_decide_eq_true

/-- A column is placed in the order of its stages. -/
theorem pairwise_placeColumn (s : LayoutSettings α) (stage : Nat → Nat) (groupIndex : Nat)
    (left width : α) (column : List Nat × Nat) :
    (placeColumn s stage groupIndex left width column).Pairwise fun p q => p.stage ≤ q.stage := by
  have hrows := pairwise_rowsOf stage column.1
  rw [← List.zipIdx_map_fst 0 (rowsOf stage column.1), List.pairwise_map] at hrows
  exact List.pairwise_map.mpr hrows

/-- What a placed column has of a stage. -/
theorem runOf_placeColumn (s : LayoutSettings α) (stage : Nat → Nat) (groupIndex : Nat)
    (left width : α) (column : List Nat × Nat) (m : Nat) :
    runOf (placeColumn s stage groupIndex left width column) m =
      (rowsOf stage column.1).filter (stage · == m) := by
  have hrows := congrArg (List.filter (stage · == m))
    (List.zipIdx_map_fst 0 (rowsOf stage column.1))
  rw [List.filter_map] at hrows
  rw [runOf, placeColumn, List.filter_map, List.map_map]
  exact hrows

theorem nodes_comp_placeColumn (s : LayoutSettings α) (stage : Nat → Nat) (groupIndex : Nat)
    (left width : α) :
    List.map Placed.node ∘ placeColumn s stage groupIndex left width =
      rowsOf stage ∘ Prod.fst := by
  funext column
  unfold placeColumn
  rw [Function.comp_apply, List.map_map]
  exact List.zipIdx_map_fst 0 _

namespace Graph

/-- The columns of a lane with everything placed. -/
def laneColumns (g : Graph) (s : LayoutSettings α) (stage : Nat → Nat) (index : Nat) (left : α)
    (lane : Lane α) : List (List (Placed α)) :=
  (g.columns lane.members s.maxNodesPerColumn).zipIdx.map
    (placeColumn s stage index left (s.columnWidth lane.members.length))

theorem addLane_slots (g : Graph) (s : LayoutSettings α) (stage : Nat → Nat) (c : Canvas α)
    (lane : Lane α) :
    (c.addLane g s stage lane).slots =
      c.slots ++ slotsOf (g.laneColumns s stage c.lanes.length c.cursor lane) := rfl

theorem sorted_laneColumns (g : Graph) (s : LayoutSettings α) (stage : Nat → Nat) (index : Nat)
    (left : α) (lane : Lane α) : ∀ placed ∈ g.laneColumns s stage index left lane,
    placed.Pairwise fun p q => p.stage ≤ q.stage := by
  intro placed h
  obtain ⟨column, _, rfl⟩ := List.mem_map.mp h
  exact pairwise_placeColumn ..

/-- The members of a lane are all placed, and each of them once. -/
theorem perm_nodes_laneColumns (g : Graph) (s : LayoutSettings α) (stage : Nat → Nat) (index : Nat)
    (left : α) (lane : Lane α) :
    ((g.laneColumns s stage index left lane).flatten.map (·.node)).Perm lane.members := by
  have hnodes : (g.laneColumns s stage index left lane).flatten.map (·.node) =
      ((g.columns lane.members s.maxNodesPerColumn).map (rowsOf stage)).flatten := by
    unfold laneColumns
    rw [List.map_flatten, List.map_map, nodes_comp_placeColumn, ← List.map_map,
      List.zipIdx_map_fst]
  rw [hnodes]
  have hrows : ∀ columns : List (List Nat),
      ((columns.map (rowsOf stage)).flatten).Perm columns.flatten := by
    intro columns
    induction columns with
    | nil => exact List.Perm.refl _
    | cons column columns ih => exact (rowsOf_perm stage column).append ih
  refine (hrows _).trans ?_
  unfold columns
  rw [flatten_chunks]
  exact List.mergeSort_perm _ _

theorem mem_lanes {g : Graph} {lane : Lane α} :
    lane ∈ g.lanes ↔ ∃ group ∈ g.groups, g.laneOf group = lane := by
  unfold lanes
  rw [(List.mergeSort_perm _ _).mem_iff, List.mem_map]

theorem mem_members_laneOf {g : Graph} {group : String} {i : Nat} :
    i ∈ (g.laneOf (α := α) group).members ↔ i < g.entityCount ∧ (g.node i).group = group := by
  unfold laneOf
  dsimp only
  rw [mem_sortedById, List.mem_filter, List.mem_range, beq_iff_eq]

theorem nodup_members_laneOf (g : Graph) (group : String) :
    (g.laneOf (α := α) group).members.Nodup := by
  unfold laneOf
  dsimp only
  rw [(g.sortedById_perm _).nodup_iff]
  exact List.nodup_range.filter _

/-- **Every slot of the canvas names entities of the graph, and none twice.** -/
theorem canvas_slots_proper (g : Graph) (s : LayoutSettings α) (stage : Nat → Nat) :
    ∀ slot ∈ (g.canvas s stage).slots, slot.Proper g.entityCount := by
  unfold canvas
  refine List.foldlRecOn (motive := fun c : Canvas α => ∀ slot ∈ c.slots, slot.Proper _)
    g.lanes _ (fun slot h => absurd h List.not_mem_nil) ?_
  intro c ih lane hlane slot hslot
  rw [addLane_slots, List.mem_append] at hslot
  rcases hslot with hslot | hslot
  · exact ih slot hslot
  · obtain ⟨group, _, rfl⟩ := mem_lanes.mp hlane
    have hperm := (flatten_slotsOf_perm _).trans
      (perm_nodes_laneColumns g s stage c.lanes.length c.cursor (g.laneOf (α := α) group))
    have hsub := (List.sublist_flatten_of_mem hslot).flatten
    refine ⟨(hperm.nodup_iff.mpr (g.nodup_members_laneOf group)).sublist hsub, ?_⟩
    intro i hi
    exact (mem_members_laneOf.mp (hperm.mem_iff.mp (hsub.subset hi))).1

/-! ### The parts of a layout -/

/-- The place of an entity that nothing has been said about. -/
def nowhere : Placed α :=
  { node := 0, stage := 0, x := Coordinate.ofNat 0, y := Coordinate.ofNat 0, groupIndex := 0,
    columnIndex := 0 }

/-- The lanes of a graph laid out side by side by the stages of its entities. -/
def stagedCanvas (g : Graph) (s : LayoutSettings α) : Canvas α := g.canvas s g.staging.stage

/-- The place of every entity before crossings are reduced. -/
def places (g : Graph) (s : LayoutSettings α) : Array (Placed α) :=
  tabulate g.entityCount nowhere ((g.stagedCanvas s).placed.map fun p => (p.node, p))

def placeAt (g : Graph) (s : LayoutSettings α) (i : Nat) : Placed α :=
  ((g.places s)[i]?).getD nowhere

/-- The heights before crossings are reduced. -/
def firstHeights (g : Graph) (s : LayoutSettings α) : Heights α := (g.places s).map (·.y)

/-- The outcome of the crossing reduction, unless there are too many links. -/
def reduction? (g : Graph) (s : LayoutSettings α) : Option (ReductionOutcome α) :=
  if (g.stagedLinks g.staging.stage).length ≤ s.crossingEdgeLimit then
    some (reduceCrossings (g.stagedLinks g.staging.stage) (g.firstHeights s)
      (g.stagedCanvas s).slots s.crossingMaxPasses)
  else none

/-- The heights after crossings have been reduced. -/
def finalHeights (g : Graph) (s : LayoutSettings α) : Heights α :=
  ((g.reduction? s).map (·.heights)).getD (g.firstHeights s)

def positionAt (g : Graph) (s : LayoutSettings α) (i : Nat) : Position α :=
  { x := (g.placeAt s i).x, y := heightOf (g.finalHeights s) i,
    groupIndex := (g.placeAt s i).groupIndex, stageIndex := g.staging.stage i,
    columnIndex := (g.placeAt s i).columnIndex }

/-- The summed length of all links. -/
def totalLength (g : Graph) (s : LayoutSettings α) : α :=
  g.links.foldl (fun (sum : α) l =>
    sum + Coordinate.length ((g.placeAt s l.source).x - (g.placeAt s l.target).x)
      (heightOf (g.finalHeights s) l.source - heightOf (g.finalHeights s) l.target))
    (Coordinate.ofNat 0)

/-- The largest number of bands that a lane has. -/
def bands (g : Graph) (s : LayoutSettings α) : Nat :=
  (g.stagedCanvas s).lanes.foldl (fun m lane => max m lane.bandCount) 0

/-- What the layout says about itself. -/
def metricsOf (g : Graph) (s : LayoutSettings α) : LayoutMetrics α where
  groupCount := (g.stagedCanvas s).lanes.length
  stageCount := g.staging.count
  columnCount := ((g.stagedCanvas s).lanes.map (·.columnCount)).foldl (· + ·) 0
  nodesPerGroup := ((g.stagedCanvas s).lanes.map fun lane => (lane.name, lane.nodeCount)).mergeSort
    fun a b => (compare a.1 b.1).isLE
  nodesPerStage := (List.range g.staging.count).map fun k =>
    (List.range g.entityCount).countP (g.staging.stage · == k)
  meanEdgeLength :=
    if (g.stagedLinks g.staging.stage).isEmpty then Coordinate.ofNat 0
    else g.totalLength s / Coordinate.ofNat (g.stagedLinks g.staging.stage).length
  crossingCount := (g.reduction? s).map (·.after)
  crossingsBeforeReduction := (g.reduction? s).map (·.before)
  reversalsApplied := ((g.reduction? s).map (·.reversals)).getD 0
  reductionPasses := ((g.reduction? s).map (·.passes)).getD 0
  cycleEdges := g.staging.cycleEdges
  width := (g.stagedCanvas s).cursor - s.groupGap + s.leftMargin
  height := Coordinate.ofNat 2 * s.topMargin + Coordinate.ofNat (g.bands s) * s.bandExtent +
    Coordinate.ofNat (g.bands s - 1) * s.bandGap

theorem layout_of_isEmpty {g : Graph} (h : g.isEmpty = true) (s : LayoutSettings α) :
    g.layout s = .empty := by
  unfold layout
  rw [if_pos h]

theorem layout_of_nonempty {g : Graph} (h : g.isEmpty = false) (s : LayoutSettings α) :
    g.layout s =
      { positions := (g.sortedById (List.range g.entityCount)).map fun i =>
          ((g.node i).id, g.positionAt s i)
        groups := (g.stagedCanvas s).lanes
        metrics := g.metricsOf s } := by
  unfold layout
  rw [if_neg (by rw [h]; exact Bool.false_ne_true)]
  rfl

theorem tabulate_eq {β : Type} (n : Nat) (fallback : β) (entries : List (Nat × β)) :
    tabulate n fallback entries = writeAll (Array.replicate n fallback) entries := rfl

@[simp] theorem size_firstHeights (g : Graph) (s : LayoutSettings α) :
    (g.firstHeights s).size = g.entityCount := by
  unfold firstHeights places
  rw [Array.size_map, tabulate_eq, size_writeAll, Array.size_replicate]

theorem stagedCanvas_slots_proper (g : Graph) (s : LayoutSettings α) :
    ∀ slot ∈ (g.stagedCanvas s).slots, slot.Proper (g.firstHeights s).size := by
  rw [size_firstHeights]
  exact g.canvas_slots_proper s g.staging.stage

/-- In a list of what there is for each entity, by id, the id of an entity finds what is
there for it. -/
theorem WellFormed.find?_sortedById {g : Graph} (hg : g.WellFormed) {β : Type} (f : Nat → β)
    {i : Nat} (hi : i < g.entityCount) :
    ((g.sortedById (List.range g.entityCount)).map fun j => ((g.node j).id, f j)).find?
      (·.1 == (g.node i).id) = some ((g.node i).id, f i) := by
  have hmem : i ∈ g.sortedById (List.range g.entityCount) :=
    mem_sortedById.mpr (List.mem_range.mpr hi)
  rw [List.find?_map, Option.map_eq_some_iff]
  refine ⟨i, ?_, rfl⟩
  obtain ⟨j, hj⟩ := Option.isSome_iff_exists.mp (List.find?_isSome
    (p := (·.1 == (g.node i).id) ∘ fun j => ((g.node j).id, f j)).mpr
      ⟨i, hmem, beq_self_eq_true _⟩)
  -- Whatever is found has the id, and only `i` has it.
  have hid : (g.node j).id = (g.node i).id := by simpa using List.find?_some hj
  have hjlt : j < g.entityCount :=
    List.mem_range.mp (mem_sortedById.mp (List.mem_of_find?_eq_some hj))
  rw [hj, hg.node_id_inj hjlt hi hid]

/-- The position of an entity is found under its id. -/
theorem WellFormed.position?_layout {g : Graph} (hg : g.WellFormed) (s : LayoutSettings α)
    {i : Nat} (hi : i < g.entityCount) :
    (g.layout s).position? (g.node i).id = some (g.positionAt s i) := by
  have hne : g.isEmpty = false := by
    rw [isEmpty, Array.isEmpty_eq_false_iff]
    intro h
    rw [entityCount, h] at hi
    exact absurd hi (Nat.not_lt_zero i)
  unfold Layout.position?
  rw [layout_of_nonempty hne, hg.find?_sortedById _ hi]
  rfl

end Graph

end CallAtlas
