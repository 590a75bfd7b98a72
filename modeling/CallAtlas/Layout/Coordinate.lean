import CallAtlas.Number.Binary

/-!
# Coordinates

The layout is computed over any type of coordinates that has the operations
below. Running programs use doubles; statements about the geometry use exact
numbers, for which the same definitions give the positions without rounding.
-/

namespace CallAtlas

/-- Numbers that positions can be computed with. -/
class Coordinate (α : Type) extends Add α, Sub α, Mul α, Div α where
  /-- The number of some things. -/
  ofNat : Nat → α
  /-- Is the first number less than the second? -/
  less : α → α → Bool
  /-- The order that positions are sorted in. -/
  order : α → α → Ordering
  /-- The larger of two numbers. -/
  larger : α → α → α
  /-- The smaller of two numbers. -/
  smaller : α → α → α
  /-- The length of a line with given horizontal and vertical extent. -/
  length : α → α → α

namespace Number

/-- The position of a double in the total order of all doubles, in which those
that are not numbers come first and the two zeros differ. -/
def orderKey (x : Float) : Nat :=
  if x.isNaN then 0
  else
    let bits := x.toBits.toNat
    if Nat.pow 2 63 ≤ bits then Nat.pow 2 64 - bits else Nat.pow 2 64 + bits

/-- The larger of two doubles; one that is not a number loses. -/
def larger (x y : Float) : Float := if x < y || x.isNaN then y else x

/-- The smaller of two doubles; one that is not a number loses. -/
def smaller (x y : Float) : Float := if y < x || x.isNaN then y else x

end Number

instance : Coordinate Float where
  ofNat := Float.ofNat
  less x y := x < y
  order x y := compare (Number.orderKey x) (Number.orderKey y)
  larger := Number.larger
  smaller := Number.smaller
  length := Number.hypot

/-- Settings of the layout, in the units of the drawing. -/
structure LayoutSettings (α : Type) where
  /-- Entities per column. -/
  maxNodesPerColumn : Nat
  /-- Columns side by side; further ones start a new band below. -/
  maxColumnsPerGroup : Nat
  baseColumnWidth : α
  /-- Additional column width per entity of the group. -/
  columnWidthPerNode : α
  maxColumnWidth : α
  groupGap : α
  /-- Vertical room of one band of columns. -/
  bandHeight : α
  bandGap : α
  topMargin : α
  leftMargin : α
  /-- Least vertical distance of two neighbours in a column. -/
  minNodeSpacing : α
  /-- How often the crossing reduction goes over the drawing. -/
  crossingMaxPasses : Nat
  /-- Crossings are neither counted nor reduced for more links than this. -/
  crossingEdgeLimit : Nat
deriving Repr, Inhabited

/-- The settings used where nothing else is said. -/
def LayoutSettings.standard {α : Type} [Coordinate α] : LayoutSettings α where
  maxNodesPerColumn := 15
  maxColumnsPerGroup := 8
  baseColumnWidth := Coordinate.ofNat 180
  columnWidthPerNode := Coordinate.ofNat 2
  maxColumnWidth := Coordinate.ofNat 320
  groupGap := Coordinate.ofNat 120
  bandHeight := Coordinate.ofNat 900
  bandGap := Coordinate.ofNat 80
  topMargin := Coordinate.ofNat 60
  leftMargin := Coordinate.ofNat 40
  minNodeSpacing := Coordinate.ofNat 28
  crossingMaxPasses := 4
  crossingEdgeLimit := 4000

end CallAtlas
