import CallAtlas.Layout.Crossing
import CallAtlas.Layout.Lane
import CallAtlas.Layout.Staging

/-!
# The layered layout

Lanes stand side by side from left to right. A lane's columns stand side by side
too, and wrap into bands when there are too many. In a column the entities stand
in the order of their stages, evenly spread over the height of a band but never
closer than the least spacing. At last whole runs of entities of one stage may
be mirrored where that removes crossings.
-/

namespace CallAtlas

variable {α : Type} [Coordinate α]

/-- Where an entity stands. -/
structure Position (α : Type) where
  x : α
  y : α
  groupIndex : Nat
  stageIndex : Nat
  /-- Counted within the group, over all bands. -/
  columnIndex : Nat
deriving Repr, Inhabited

/-- The geometry of a lane. -/
structure LaneGeometry (α : Type) where
  name : String
  index : Nat
  /-- The left edge. -/
  x : α
  width : α
  columnWidth : α
  columnCount : Nat
  bandCount : Nat
  nodeCount : Nat
  totalOutDegree : Nat
  meanOutDegree : α
deriving Repr, Inhabited

/-- What can be said about a layout as a whole. -/
structure LayoutMetrics (α : Type) where
  groupCount : Nat
  stageCount : Nat
  columnCount : Nat
  /-- By group name, in order. -/
  nodesPerGroup : List (String × Nat)
  /-- By stage. -/
  nodesPerStage : List Nat
  meanEdgeLength : α
  /-- Missing where there are too many links to count. -/
  crossingCount : Option Nat
  crossingsBeforeReduction : Option Nat
  reversalsApplied : Nat
  reductionPasses : Nat
  cycleEdges : Nat
  width : α
  height : α
deriving Repr, Inhabited

/-- A position for every entity, the lanes, and what can be said about them. -/
structure Layout (α : Type) where
  /-- By entity id, in order. -/
  positions : List (String × Position α)
  /-- From left to right. -/
  groups : List (LaneGeometry α)
  metrics : LayoutMetrics α
deriving Repr, Inhabited

namespace Layout

/-- The layout of nothing. -/
def empty : Layout α where
  positions := []
  groups := []
  metrics :=
    { groupCount := 0, stageCount := 0, columnCount := 0, nodesPerGroup := [],
      nodesPerStage := [], meanEdgeLength := Coordinate.ofNat 0, crossingCount := none,
      crossingsBeforeReduction := none, reversalsApplied := 0, reductionPasses := 0,
      cycleEdges := 0, width := Coordinate.ofNat 0, height := Coordinate.ofNat 0 }

/-- The position of an entity. -/
def position? (l : Layout α) (id : String) : Option (Position α) :=
  (l.positions.find? (·.1 == id)).map (·.2)

/-- The lane of a group. -/
def group? (l : Layout α) (name : String) : Option (LaneGeometry α) :=
  l.groups.find? (·.name == name)

/-- The ids in one column of one group from top to bottom. -/
def column (l : Layout α) (groupIndex columnIndex : Nat) : List String :=
  ((l.positions.filter fun p =>
      p.2.groupIndex == groupIndex && p.2.columnIndex == columnIndex).mergeSort fun a b =>
    ((Coordinate.order a.2.y b.2.y).then (compare a.1 b.1)).isLE).map (·.1)

end Layout

/-- An entity placed in a column, before crossings are reduced. -/
structure Placed (α : Type) where
  node : Nat
  stage : Nat
  x : α
  y : α
  groupIndex : Nat
  columnIndex : Nat
deriving Repr, Inhabited

/-- A number that has to be a machine word of 64 bits. Where it is none, a run stops
and has no result. -/
def Word.word? (n : Nat) : Option Nat := if n < UInt64.size then some n else none

namespace LayoutSettings

/-- The height of one band: what the settings say, or more where a full column
at the least spacing needs it. -/
def bandExtent (s : LayoutSettings α) : α :=
  Coordinate.larger s.bandHeight (Coordinate.ofNat (s.maxNodesPerColumn + 1) * s.minNodeSpacing)

/-- The height of one band as a run works it out. One more than the capacity of a
column is counted in a machine word, and the capacity may be the largest there is. -/
def bandExtent? (s : LayoutSettings α) : Option α := do
  return Coordinate.larger s.bandHeight
    (Coordinate.ofNat (← Word.word? (s.maxNodesPerColumn + 1)) * s.minNodeSpacing)

/-- Columns side by side; zero counts as one. -/
def columnsPerBand (s : LayoutSettings α) : Nat := max 1 s.maxColumnsPerGroup

/-- The vertical distance of neighbours in a column of so many entities. -/
def spacing (s : LayoutSettings α) (count : Nat) : α :=
  Coordinate.larger (s.bandHeight / Coordinate.ofNat (count + 1)) s.minNodeSpacing

end LayoutSettings

/-- The entities of a column from top to bottom: by stage, and in the order of
the column within a stage. -/
def rowsOf (stage : Nat → Nat) (column : List Nat) : List Nat :=
  column.mergeSort fun i j => stage i ≤ stage j

/-- Places the entities of one column of a lane whose left edge is `left`. -/
def placeColumn (s : LayoutSettings α) (stage : Nat → Nat) (groupIndex : Nat) (left width : α)
    (column : List Nat × Nat) : List (Placed α) :=
  let rows := rowsOf stage column.1
  let columnIndex := column.2
  let perBand := s.columnsPerBand
  let x := left + Coordinate.ofNat (columnIndex % perBand) * width + width / Coordinate.ofNat 2
  let top := s.topMargin +
    Coordinate.ofNat (columnIndex / perBand) * (s.bandExtent + s.bandGap)
  let spacing := s.spacing rows.length
  rows.zipIdx.map fun (node, row) =>
    { node, stage := stage node, x, y := top + spacing * Coordinate.ofNat (row + 1),
      groupIndex, columnIndex }

/-- The slots of a lane by stage, from low to high. -/
abbrev SlotTable := List (Nat × Slot)

/-- Puts a run at the end of the slot of a stage. -/
def SlotTable.push (stage : Nat) (run : List Nat) : SlotTable → SlotTable
  | [] => [(stage, [run])]
  | (m, slot) :: rest =>
      if stage < m then (stage, [run]) :: (m, slot) :: rest
      else if m < stage then (m, slot) :: SlotTable.push stage run rest
      else (m, slot ++ [run]) :: rest

/-- How far a column has been cut into runs. -/
structure Cutting where
  /-- The slots, with the runs that have come to their end. -/
  slots : SlotTable
  /-- The stage of the run at hand and its entities so far. -/
  pending : Option (Nat × List Nat)

/-- Takes the next entity of the column. The run at hand goes on while the stage stays the
same. -/
def Cutting.step (c : Cutting) (p : Placed α) : Cutting :=
  match c.pending with
  | none => { c with pending := some (p.stage, [p.node]) }
  | some (stage, run) =>
      if p.stage = stage then { c with pending := some (stage, run ++ [p.node]) }
      else { slots := c.slots.push stage run, pending := some (p.stage, [p.node]) }

/-- The slots with the last run of the column, which has no entity after it to end it. -/
def Cutting.flush (c : Cutting) : SlotTable :=
  match c.pending with
  | none => c.slots
  | some (stage, run) => c.slots.push stage run

/-- Cuts a column into runs of one stage each and adds them to the slots of their stages. -/
def cutColumn (slots : SlotTable) (column : List (Placed α)) : SlotTable :=
  (column.foldl Cutting.step { slots, pending := none }).flush

/-- The slots of a lane: for each stage from low to high, the entities of that
stage column by column. -/
def slotsOf (columns : List (List (Placed α))) : List Slot :=
  (columns.foldl cutColumn []).map (·.2)

/-- What has been laid out so far, from the left. -/
structure Canvas (α : Type) where
  /-- Where the next lane starts. -/
  cursor : α
  lanes : List (LaneGeometry α)
  placed : List (Placed α)
  slots : List Slot

/-- Lays out the next lane. -/
def Canvas.addLane (g : Graph) (s : LayoutSettings α) (stage : Nat → Nat) (c : Canvas α)
    (lane : Lane α) : Canvas α :=
  let index := c.lanes.length
  let columns := g.columns lane.members s.maxNodesPerColumn
  let columnWidth := s.columnWidth lane.members.length
  let perBand := s.columnsPerBand
  let width := Coordinate.ofNat (min columns.length perBand) * columnWidth
  let placed := columns.zipIdx.map (placeColumn s stage index c.cursor columnWidth)
  { cursor := c.cursor + (width + s.groupGap)
    lanes := c.lanes ++ [
      { name := lane.name, index, x := c.cursor, width, columnWidth,
        columnCount := columns.length,
        bandCount := (columns.length + perBand - 1) / perBand,
        nodeCount := lane.members.length, totalOutDegree := lane.totalOutDegree,
        meanOutDegree := lane.meanOutDegree }]
    placed := c.placed ++ placed.flatten
    slots := c.slots ++ slotsOf placed }

namespace Graph

/-- The links of a graph with the stages of their ends. -/
def stagedLinks (g : Graph) (stage : Nat → Nat) : List StagedLink :=
  g.links.toList.map fun l => .make l.source l.target (stage l.source) (stage l.target)

/-- The lanes of a graph laid out side by side. -/
def canvas (g : Graph) (s : LayoutSettings α) (stage : Nat → Nat) : Canvas α :=
  g.lanes.foldl (Canvas.addLane g s stage)
    { cursor := s.leftMargin, lanes := [], placed := [], slots := [] }

/-- Values by position, from a list of positions with values; `fallback` where
none is given. -/
def tabulate {β : Type} (n : Nat) (fallback : β) (entries : List (Nat × β)) : Array β :=
  entries.foldl (fun a (i, v) => a.setIfInBounds i v) (Array.replicate n fallback)

/-- The layout of a graph. A run comes to it unless it stops before (`runLayout?`). -/
def layout (g : Graph) (s : LayoutSettings α) : Layout α :=
  if g.isEmpty then .empty
  else
    let n := g.entityCount
    let staging := g.staging
    let stage := staging.stage
    let canvas := g.canvas s stage
    let zero : α := Coordinate.ofNat 0
    let nowhere : Placed α :=
      { node := 0, stage := 0, x := zero, y := zero, groupIndex := 0, columnIndex := 0 }
    let places := tabulate n nowhere (canvas.placed.map fun p => (p.node, p))
    let place (i : Nat) : Placed α := (places[i]?).getD nowhere
    let links := g.stagedLinks stage
    let ys : Heights α := places.map (·.y)
    let outcome :=
      if links.length ≤ s.crossingEdgeLimit then
        some (reduceCrossings links ys canvas.slots s.crossingMaxPasses)
      else none
    let ys := (outcome.map (·.heights)).getD ys
    let positions := (g.sortedById (List.range n)).map fun i =>
      let p := place i
      ((g.node i).id,
        { x := p.x, y := heightOf ys i, groupIndex := p.groupIndex, stageIndex := stage i,
          columnIndex := p.columnIndex : Position α })
    let total := g.links.foldl (fun (sum : α) l =>
      sum + Coordinate.length ((place l.source).x - (place l.target).x)
        (heightOf ys l.source - heightOf ys l.target)) zero
    let bands := canvas.lanes.foldl (fun m lane => max m lane.bandCount) 0
    { positions
      groups := canvas.lanes
      metrics :=
        { groupCount := canvas.lanes.length
          stageCount := staging.count
          columnCount := (canvas.lanes.map (·.columnCount)).foldl (· + ·) 0
          nodesPerGroup := (canvas.lanes.map fun lane => (lane.name, lane.nodeCount)).mergeSort
            fun a b => (compare a.1 b.1).isLE
          nodesPerStage := (List.range staging.count).map fun k =>
            (List.range n).countP (stage · == k)
          meanEdgeLength := if links.isEmpty then zero else total / Coordinate.ofNat links.length
          crossingCount := outcome.map (·.after)
          crossingsBeforeReduction := outcome.map (·.before)
          reversalsApplied := (outcome.map (·.reversals)).getD 0
          reductionPasses := (outcome.map (·.passes)).getD 0
          cycleEdges := staging.cycleEdges
          width := canvas.cursor - s.groupGap + s.leftMargin
          height := Coordinate.ofNat 2 * s.topMargin + Coordinate.ofNat bands * s.bandExtent +
            Coordinate.ofNat (bands - 1) * s.bandGap } }

/-- The layout that a run comes to. Where there is something to lay out, the height of
a band is worked out first, and a run that has no machine word for it stops. -/
def runLayout? (g : Graph) (s : LayoutSettings α) : Option (Layout α) := do
  if g.isEmpty then return .empty
  let _ ← s.bandExtent?
  return g.layout s

end Graph

end CallAtlas
