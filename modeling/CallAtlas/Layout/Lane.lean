import CallAtlas.Graph.Basic
import CallAtlas.Layout.Coordinate

/-!
# Lanes and columns

Every group of entities gets a lane. Lanes are ordered by how many calls their
entities make on average, so that the groups that depend least come first.
Within a lane the entities fill columns, the busiest first.
-/

namespace CallAtlas

variable {α : Type} [Coordinate α]

/-- A group of entities and how much it depends on others. -/
structure Lane (α : Type) where
  name : String
  /-- The positions of its entities, by id. -/
  members : List Nat
  totalOutDegree : Nat
  meanOutDegree : α
deriving Repr, Inhabited

namespace Lane

/-- The order of lanes: by mean, then total out-degree, then name. -/
def order (a b : Lane α) : Ordering :=
  (Coordinate.order a.meanOutDegree b.meanOutDegree).then
    ((compare a.totalOutDegree b.totalOutDegree).then (compare a.name b.name))

end Lane

namespace Graph

/-- The lane of a group. -/
def laneOf (g : Graph) (group : String) : Lane α :=
  let members := g.sortedById
    ((List.range g.entityCount).filter fun i => (g.node i).group == group)
  let total := (members.map fun i => (g.node i).outDegree).foldl (· + ·) 0
  { name := group, members, totalOutDegree := total,
    meanOutDegree := Coordinate.ofNat total / Coordinate.ofNat members.length }

/-- The lanes of a graph from left to right. -/
def lanes (g : Graph) : List (Lane α) :=
  (g.groups.map g.laneOf).mergeSort fun a b => (a.order b).isLE

/-- The order of entities within a lane: more calls made first, then more calls
received, then by name, then by id. -/
def rankOrder (g : Graph) (i j : Nat) : Ordering :=
  let a := g.node i
  let b := g.node j
  (compare b.outDegree a.outDegree).then ((compare b.inDegree a.inDegree).then
    ((compare a.name b.name).then (compare a.id b.id)))

/-- Positions by rank. -/
def ranked (g : Graph) (members : List Nat) : List Nat :=
  members.mergeSort fun i j => (g.rankOrder i j).isLE

end Graph

/-- A list cut into pieces of a given length, of which the last may be shorter;
at most `fuel` pieces. -/
def chunksUpTo {β : Type} (size : Nat) : Nat → List β → List (List β)
  | 0, _ => []
  | _, [] => []
  | fuel + 1, xs => xs.take size :: chunksUpTo size fuel (xs.drop size)

/-- A list cut into pieces of a given length, of which the last may be shorter. -/
def chunks {β : Type} (size : Nat) (xs : List β) : List (List β) :=
  chunksUpTo (max 1 size) xs.length xs

/-- The columns of a lane. A capacity of zero counts as one. -/
def Graph.columns (g : Graph) (members : List Nat) (capacity : Nat) : List (List Nat) :=
  chunks capacity (g.ranked members)

/-- The width of the columns of a lane with so many entities. -/
def LayoutSettings.columnWidth (s : LayoutSettings α) (count : Nat) : α :=
  Coordinate.smaller (s.baseColumnWidth + s.columnWidthPerNode * Coordinate.ofNat count)
    s.maxColumnWidth

end CallAtlas
