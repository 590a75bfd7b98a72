import Mathlib
import CallAtlas.Proofs.Layout.Heights
import CallAtlas.Proofs.Layout.Word

/-!
# The canvas in machine words

Lanes are weighed by the calls their entities make, cut into columns, and the rows
of each column are placed by their number. Here every sum, every quotient and every
look into a column is checked, and no check fails as long as there is a word for
the number of rows that a band has room for (`WellFormed.canvas?_eq`).

The rows of a column are sorted as pairs of a stage and a rank, and the rank then
says which entry of the column is meant. As no two ranks are equal, that is the
sort of the column by stage which keeps its order within a stage (`rowsOf?_eq`).
-/

namespace CallAtlas

open Word

variable {α : Type} [Coordinate α]

/-- Entities and links are numbered in half words of 32 bits, so that no graph holds
as many of either as there are half words. -/
structure Graph.Numbered (g : Graph) : Prop where
  entityCount_lt : g.entityCount < 2 ^ 32
  edgeCount_lt : g.edgeCount < 2 ^ 32

/-! ### The canvas with checked steps -/

namespace LayoutSettings

/-- The vertical distance of neighbours in a column of so many entities. -/
def spacing? (s : LayoutSettings α) (count : Nat) : Option α := do
  return Coordinate.larger (← ratio? s.bandHeight (← word? (count + 1))) s.minNodeSpacing

end LayoutSettings

/-- The order of rows: by stage, then by rank. -/
def rowOrder (a b : Nat × Nat) : Bool := a.1 < b.1 || (a.1 == b.1 && a.2 ≤ b.2)

/-- The entities of a column from top to bottom, looked up in it by rank. -/
def rowsOf? (stage : Nat → Nat) (column : List Nat) : Option (List Nat) :=
  ((column.zipIdx.map fun p => (stage p.1, p.2)).mergeSort rowOrder).mapM fun row => column[row.2]?

/-- A list cut into pieces of a given length, which must not be zero. -/
def pieces? {β : Type} (size : Nat) (xs : List β) : Option (List (List β)) :=
  if size = 0 then none else some (chunksUpTo size xs.length xs)

/-- Places the entities of one column where a band has the height `extent`. -/
def placeColumn? (s : LayoutSettings α) (extent : α) (stage : Nat → Nat) (groupIndex : Nat)
    (left width : α) (column : List Nat × Nat) : Option (List (Placed α)) := do
  let rows ← rowsOf? stage column.1
  let columnIndex := column.2
  let across ← remainder? columnIndex s.columnsPerBand
  let band ← quotient? columnIndex s.columnsPerBand
  let x := left + Coordinate.ofNat across * width + width / Coordinate.ofNat 2
  let top := s.topMargin + Coordinate.ofNat band * (extent + s.bandGap)
  let spacing ← s.spacing? rows.length
  rows.zipIdx.mapM fun (node, row) => do
    let below ← word? (row + 1)
    return { node, stage := stage node, x, y := top + spacing * Coordinate.ofNat below,
             groupIndex, columnIndex }

/-- Lays out the next lane. -/
def Canvas.addLane? (g : Graph) (s : LayoutSettings α) (extent : α) (stage : Nat → Nat)
    (c : Canvas α) (lane : Lane α) : Option (Canvas α) := do
  let index := c.lanes.length
  let columns ← pieces? (max 1 s.maxNodesPerColumn) (g.ranked lane.members)
  let columnWidth := s.columnWidth lane.members.length
  let perBand := s.columnsPerBand
  let width := Coordinate.ofNat (min columns.length perBand) * columnWidth
  let bandCount ← ceilDiv? columns.length perBand
  let placed ← columns.zipIdx.mapM (placeColumn? s extent stage index c.cursor columnWidth)
  return { cursor := c.cursor + (width + s.groupGap)
           lanes := c.lanes ++ [
             { name := lane.name, index, x := c.cursor, width, columnWidth,
               columnCount := columns.length, bandCount, nodeCount := lane.members.length,
               totalOutDegree := lane.totalOutDegree, meanOutDegree := lane.meanOutDegree }]
           placed := c.placed ++ placed.flatten
           slots := c.slots ++ slotsOf placed }

namespace Graph

/-- The lane of a group, with the sum and the mean of the calls made. -/
def laneOf? (g : Graph) (group : String) : Option (Lane α) := do
  let members := g.sortedById
    ((List.range g.entityCount).filter fun i => (g.node i).group == group)
  let total ← sum? (members.map fun i => (g.node i).outDegree)
  return { name := group, members, totalOutDegree := total,
           meanOutDegree := ← ratio? (Coordinate.ofNat total) members.length }

/-- The lanes of a graph from left to right. -/
def lanes? (g : Graph) : Option (List (Lane α)) := do
  return (← g.groups.mapM g.laneOf?).mergeSort fun a b => (a.order b).isLE

/-- The lanes of a graph laid out side by side, in bands of the height `extent`. -/
def canvas? (g : Graph) (s : LayoutSettings α) (extent : α) (stage : Nat → Nat) :
    Option (Canvas α) := do
  (← g.lanes?).foldlM (Canvas.addLane? g s extent stage)
    { cursor := s.leftMargin, lanes := [], placed := [], slots := [] }

end Graph

/-! ### One column -/

/-- Sorting the entries of a column with their ranks is sorting their stages with
their ranks. -/
theorem zipIdxLE_eq_rowOrder (stage : Nat → Nat) (p q : Nat × Nat) :
    List.zipIdxLE (fun i j => decide (stage i ≤ stage j)) p q =
      rowOrder (stage p.1, p.2) (stage q.1, q.2) := by
  unfold List.zipIdxLE rowOrder
  simp only [decide_eq_true_eq]
  rcases Nat.lt_trichotomy (stage p.1) (stage q.1) with hlt | heq | hgt
  · simp [hlt, Nat.le_of_lt hlt, Nat.not_le.mpr hlt]
  · simp [heq]
  · simp [Nat.not_le.mpr hgt, Nat.not_lt.mpr (Nat.le_of_lt hgt), Nat.ne_of_gt hgt]

theorem rowsOf?_eq (stage : Nat → Nat) (column : List Nat) :
    rowsOf? stage column = some (rowsOf stage column) := by
  have hsort : (column.zipIdx.map fun p => (stage p.1, p.2)).mergeSort rowOrder =
      (column.zipIdx.mergeSort (List.zipIdxLE fun i j => decide (stage i ≤ stage j))).map
        fun p => (stage p.1, p.2) :=
    (List.map_mergeSort fun p _ q _ => zipIdxLE_eq_rowOrder stage p q).symm
  have hrows : rowsOf stage column =
      (column.zipIdx.mergeSort (List.zipIdxLE fun i j => decide (stage i ≤ stage j))).map (·.1) :=
    List.mergeSort_zipIdx.symm
  unfold rowsOf?
  rw [hsort, hrows, List.mapM_map]
  refine mapM_eq_map fun p hp => ?_
  exact List.mem_zipIdx_iff_getElem?.mp ((List.mergeSort_perm _ _).mem_iff.mp hp)

theorem pieces?_max_one {β : Type} (size : Nat) (xs : List β) :
    pieces? (max 1 size) xs = some (chunks size xs) :=
  if_neg (by omega)

namespace LayoutSettings

variable {s : LayoutSettings α}

theorem bandExtent?_eq (hcapacity : s.maxNodesPerColumn + 1 < 2 ^ 64) :
    s.bandExtent? = some s.bandExtent := by
  unfold bandExtent? bandExtent
  rw [word?_of_lt hcapacity]
  rfl

/-- For one more than the largest machine word there is no word. -/
theorem bandExtent?_eq_none (hcapacity : 2 ^ 64 ≤ s.maxNodesPerColumn + 1) :
    s.bandExtent? = none := by
  unfold bandExtent?
  rw [word?_of_le hcapacity]
  rfl

theorem spacing?_eq {count : Nat} (hcount : count + 1 < 2 ^ 64) :
    s.spacing? count = some (s.spacing count) := by
  unfold spacing?
  rw [word?_of_lt hcount]
  dsimp only [Option.bind_eq_bind, Option.bind_some]
  rw [ratio?_of_pos (Nat.succ_pos count)]
  rfl

omit [Coordinate α] in
theorem columnsPerBand_pos (s : LayoutSettings α) : 0 < s.columnsPerBand := by
  unfold columnsPerBand
  omega

end LayoutSettings

theorem placeColumn?_eq {s : LayoutSettings α} {stage : Nat → Nat} {groupIndex : Nat}
    {left width : α} {column : List Nat × Nat} (hlength : column.1.length + 1 < 2 ^ 64) :
    placeColumn? s s.bandExtent stage groupIndex left width column =
      some (placeColumn s stage groupIndex left width column) := by
  have hrows : (rowsOf stage column.1).length = column.1.length := (rowsOf_perm _ _).length_eq
  unfold placeColumn? placeColumn
  rw [rowsOf?_eq]
  dsimp only [Option.bind_eq_bind, Option.bind_some]
  rw [remainder?_of_pos s.columnsPerBand_pos, quotient?_of_pos s.columnsPerBand_pos,
    s.spacing?_eq (by rwa [hrows])]
  dsimp only [Option.bind_some]
  refine mapM_eq_map fun p hp => ?_
  have hrow : p.2 < (rowsOf stage column.1).length :=
    (List.getElem?_eq_some_iff.mp (List.mem_zipIdx_iff_getElem?.mp hp)).1
  rw [word?_of_lt (by omega)]
  rfl

/-! ### One lane -/

/-- Pieces are no longer than what is cut, and no more. -/
theorem length_le_of_mem_chunks {β : Type} {size : Nat} {xs piece : List β}
    (h : piece ∈ chunks size xs) : piece.length ≤ xs.length := by
  have hsub := (List.sublist_flatten_of_mem h).length_le
  rwa [flatten_chunks] at hsub

theorem length_chunks_le {β : Type} (size : Nat) (xs : List β) :
    (chunks size xs).length ≤ xs.length := by
  rw [length_chunks]
  exact (ceilDiv_le_iff_le_mul (by omega)).mpr (Nat.le_mul_of_pos_left _ (by omega))

theorem addLane?_eq {g : Graph} {s : LayoutSettings α} {stage : Nat → Nat} (c : Canvas α)
    {lane : Lane α} (hlane : lane.members.length + 1 < 2 ^ 64) :
    c.addLane? g s s.bandExtent stage lane = some (c.addLane g s stage lane) := by
  have hranked : (g.ranked lane.members).length = lane.members.length :=
    (g.ranked_perm lane.members).length_eq
  have hcolumns := length_chunks_le s.maxNodesPerColumn (g.ranked lane.members)
  have hplaced : (chunks s.maxNodesPerColumn (g.ranked lane.members)).zipIdx.mapM
      (placeColumn? s s.bandExtent stage c.lanes.length c.cursor
        (s.columnWidth lane.members.length)) =
      some (g.laneColumns s stage c.lanes.length c.cursor lane) := by
    refine mapM_eq_map fun column hcolumn => placeColumn?_eq ?_
    have hmem := List.mem_of_getElem? (List.mem_zipIdx_iff_getElem?.mp hcolumn)
    have hle := length_le_of_mem_chunks hmem
    omega
  unfold Canvas.addLane?
  rw [pieces?_max_one]
  dsimp only [Option.bind_eq_bind, Option.bind_some]
  rw [ceilDiv?_of_pos (by omega) s.columnsPerBand_pos, hplaced]
  rfl

namespace Graph

/-! ### All lanes -/

variable {g : Graph}

theorem length_members_laneOf_le (g : Graph) (group : String) :
    (g.laneOf (α := α) group).members.length ≤ g.entityCount := by
  have hlength := (g.sortedById_perm ((List.range g.entityCount).filter fun i =>
    (g.node i).group == group)).length_eq
  have hle := List.length_filter_le (fun i => (g.node i).group == group) (List.range g.entityCount)
  rw [List.length_range] at hle
  exact hlength.trans_le hle

/-- The entities of a group make no more calls than there are links. -/
theorem WellFormed.sum_outDegree_le (hg : g.WellFormed) (group : String) :
    ((g.laneOf (α := α) group).members.map fun i => (g.node i).outDegree).sum ≤ g.edgeCount := by
  have hall : ((List.range g.entityCount).map fun i => (g.node i).outDegree).sum = g.edgeCount := by
    rw [← hg.sum_degree .downstream, toList_entities, List.map_map]
    rfl
  have hperm := g.sortedById_perm ((List.range g.entityCount).filter fun i =>
    (g.node i).group == group)
  have hsub := (List.filter_sublist (l := List.range g.entityCount)
    (p := fun i => (g.node i).group == group)).map fun i => (g.node i).outDegree
  calc ((g.laneOf (α := α) group).members.map fun i => (g.node i).outDegree).sum
      = (((List.range g.entityCount).filter fun i => (g.node i).group == group).map
          fun i => (g.node i).outDegree).sum := (hperm.map _).sum_eq
    _ ≤ ((List.range g.entityCount).map fun i => (g.node i).outDegree).sum :=
        hsub.sum_le_sum fun _ _ => Nat.zero_le _
    _ = g.edgeCount := hall

theorem WellFormed.laneOf?_eq (hg : g.WellFormed) (hn : g.Numbered) {group : String}
    (hgroup : group ∈ g.groups) : g.laneOf? (α := α) group = some (g.laneOf group) := by
  obtain ⟨i, hi, hname⟩ := mem_groups.mp hgroup
  have hmember : i ∈ (g.laneOf (α := α) group).members := mem_members_laneOf.mpr ⟨hi, hname⟩
  have hpos := List.length_pos_of_mem hmember
  have hsum := hg.sum_outDegree_le (α := α) group
  have hlinks := hn.edgeCount_lt
  unfold laneOf at hpos hsum
  unfold laneOf? laneOf
  dsimp only at hpos hsum ⊢
  rw [sum?_of_lt (by omega)]
  dsimp only [Option.bind_eq_bind, Option.bind_some]
  rw [ratio?_of_pos hpos]
  rfl

theorem WellFormed.lanes?_eq (hg : g.WellFormed) (hn : g.Numbered) :
    g.lanes? (α := α) = some g.lanes := by
  unfold lanes?
  rw [mapM_eq_map fun group hgroup => hg.laneOf?_eq hn hgroup]
  rfl

/-- **Laying out the lanes takes all of its steps.** -/
theorem WellFormed.canvas?_eq (hg : g.WellFormed) (hn : g.Numbered) (s : LayoutSettings α)
    (stage : Nat → Nat) : g.canvas? s s.bandExtent stage = some (g.canvas s stage) := by
  unfold canvas?
  rw [hg.lanes?_eq hn]
  refine foldlM_eq_foldl (fun _ => True) trivial ?_
  intro c _ lane hlane
  obtain ⟨group, _, rfl⟩ := mem_lanes.mp hlane
  have hle := g.length_members_laneOf_le (α := α) group
  have hlt := hn.entityCount_lt
  exact ⟨addLane?_eq c (by omega), trivial⟩

end Graph

end CallAtlas
