import Mathlib
import CallAtlas.Proofs.Layout.Spots

/-!
# What is drawn on the canvas

Lanes are laid out one after the other, and each adds its geometry, what it places and its
slots to the canvas. **Nothing that has been drawn is touched again**, so a finished canvas
can be read lane by lane (`Canvas.Drawn`): beside every lane of the graph stands its
geometry, and what is placed is what the columns of the lanes place from the left edges of
these geometries.

For one entity this comes down to where it stands (`WithinColumn`): in the middle of its
column, which depends on the geometry of its lane, and in some row of its column, which
depends on nothing but the settings and the number of rows.
-/

namespace CallAtlas

variable {α : Type} [Coordinate α]

namespace LayoutSettings

/-- The middle of a column of a lane. -/
def columnCentre (s : LayoutSettings α) (geometry : LaneGeometry α) (column : Nat) : α :=
  geometry.x + Coordinate.ofNat (column % s.columnsPerBand) * geometry.columnWidth +
    geometry.columnWidth / Coordinate.ofNat 2

/-- The top of the band that a column is in. -/
def bandTop (s : LayoutSettings α) (column : Nat) : α :=
  s.topMargin + Coordinate.ofNat (column / s.columnsPerBand) * (s.bandExtent + s.bandGap)

/-- The height of a row of a column that has so many rows. -/
def rowHeight (s : LayoutSettings α) (column count row : Nat) : α :=
  s.bandTop column + s.spacing count * Coordinate.ofNat (row + 1)

end LayoutSettings

/-! ### One lane -/

namespace Graph

/-- The geometry of a lane that is laid out under an index from a left edge. -/
def geometryOf (g : Graph) (s : LayoutSettings α) (index : Nat) (left : α) (lane : Lane α) :
    LaneGeometry α :=
  { g.flatLane s index lane with
    x := left
    width := Coordinate.ofNat
        (min (g.columns lane.members s.maxNodesPerColumn).length s.columnsPerBand) *
      s.columnWidth lane.members.length
    columnWidth := s.columnWidth lane.members.length }

/-- What a lane adds to the canvas. -/
theorem addLane_eq_geometryOf (g : Graph) (s : LayoutSettings α) (stage : Nat → Nat) (c : Canvas α)
    (lane : Lane α) :
    c.addLane g s stage lane =
      { cursor := c.cursor + ((g.geometryOf s c.lanes.length c.cursor lane).width + s.groupGap)
        lanes := c.lanes ++ [g.geometryOf s c.lanes.length c.cursor lane]
        placed := c.placed ++ (g.laneColumns s stage c.lanes.length c.cursor lane).flatten
        slots := c.slots ++ slotsOf (g.laneColumns s stage c.lanes.length c.cursor lane) } := rfl

/-- What is placed in the columns of a lane: in every column, row by row. -/
theorem mem_laneColumns {g : Graph} {s : LayoutSettings α} {stage : Nat → Nat} {index : Nat}
    {left : α} {lane : Lane α} {placed : List (Placed α)}
    (h : placed ∈ g.laneColumns s stage index left lane) :
    ∃ c column, (g.columns lane.members s.maxNodesPerColumn)[c]? = some column ∧
      ∀ p ∈ placed, p.groupIndex = index ∧ p.columnIndex = c ∧
        p.x = s.columnCentre (g.geometryOf s index left lane) c ∧
        ∃ row, (rowsOf stage column)[row]? = some p.node ∧
          p.y = s.rowHeight c (rowsOf stage column).length row := by
  obtain ⟨⟨column, c⟩, hcolumn, rfl⟩ := List.mem_map.mp h
  refine ⟨c, column, List.mem_zipIdx_iff_getElem?.mp hcolumn, ?_⟩
  intro p hp
  obtain ⟨⟨node, row⟩, hrow, rfl⟩ := List.mem_map.mp hp
  exact ⟨rfl, rfl, rfl, row, List.mem_zipIdx_iff_getElem?.mp hrow, rfl⟩

end Graph

/-! ### Lane after lane -/

/-- Lanes have been drawn on a canvas, each beside its geometry. -/
structure Canvas.Drawn (g : Graph) (s : LayoutSettings α) (stage : Nat → Nat)
    (lanes : List (Lane α)) (c : Canvas α) : Prop where
  length_lanes : c.lanes.length = lanes.length
  /-- Only the left edge of a lane depends on the lanes before it. -/
  geometry_eq : ∀ k lane geometry, lanes[k]? = some lane → c.lanes[k]? = some geometry →
    geometry = g.geometryOf s k geometry.x lane
  placed_eq : c.placed = (lanes.zip c.lanes).flatMap fun (lane, geometry) =>
    (g.laneColumns s stage geometry.index geometry.x lane).flatten
  slots_eq : c.slots = (lanes.zip c.lanes).flatMap fun (lane, geometry) =>
    slotsOf (g.laneColumns s stage geometry.index geometry.x lane)

namespace Canvas.Drawn

variable {g : Graph} {s : LayoutSettings α} {stage : Nat → Nat} {lanes : List (Lane α)}
  {c : Canvas α}

theorem addLane (h : c.Drawn g s stage lanes) (lane : Lane α) :
    (c.addLane g s stage lane).Drawn g s stage (lanes ++ [lane]) := by
  rw [Graph.addLane_eq_geometryOf]
  have hzip : (lanes ++ [lane]).zip (c.lanes ++ [g.geometryOf s c.lanes.length c.cursor lane]) =
      lanes.zip c.lanes ++ [(lane, g.geometryOf s c.lanes.length c.cursor lane)] :=
    List.zip_append h.length_lanes.symm
  refine ⟨by simp [h.length_lanes], ?_, ?_, ?_⟩
  · intro k lane' geometry hlane hgeometry
    rcases Nat.lt_or_ge k lanes.length with hk | hk
    · rw [List.getElem?_append_left hk] at hlane
      rw [List.getElem?_append_left (by rw [h.length_lanes]; exact hk)] at hgeometry
      exact h.geometry_eq k lane' geometry hlane hgeometry
    · -- Past the lanes that were there, only the new one is left.
      have hlt := (List.getElem?_eq_some_iff.mp hlane).1
      rw [List.length_append, List.length_singleton] at hlt
      obtain rfl : k = lanes.length := by omega
      rw [List.getElem?_concat_length] at hlane
      rw [← h.length_lanes, List.getElem?_concat_length] at hgeometry
      cases hlane
      cases hgeometry
      rw [← h.length_lanes]
      rfl
  · rw [h.placed_eq, hzip, List.flatMap_append, List.flatMap_singleton]
    rfl
  · rw [h.slots_eq, hzip, List.flatMap_append, List.flatMap_singleton]
    rfl

theorem foldl_addLane (lanes : List (Lane α)) :
    (lanes.foldl (Canvas.addLane g s stage)
      { cursor := s.leftMargin, lanes := [], placed := [], slots := [] }).Drawn g s stage lanes := by
  induction lanes using List.reverseRecOn with
  | nil => exact ⟨rfl, by simp, rfl, rfl⟩
  | append_singleton lanes lane ih =>
      rw [List.foldl_append]
      exact ih.addLane lane

/-- The index of a geometry is its position. -/
theorem index_eq (h : c.Drawn g s stage lanes) {k : Nat} {lane : Lane α} {geometry : LaneGeometry α}
    (hlane : lanes[k]? = some lane) (hgeometry : c.lanes[k]? = some geometry) :
    geometry.index = k := by
  rw [h.geometry_eq k lane geometry hlane hgeometry]
  rfl

end Canvas.Drawn

namespace Graph

theorem drawn_stagedCanvas (g : Graph) (s : LayoutSettings α) :
    (g.stagedCanvas s).Drawn g s g.staging.stage g.lanes :=
  Canvas.Drawn.foldl_addLane g.lanes

/-- A lane is as wide as the columns that it shows side by side. -/
theorem width_stagedCanvas {g : Graph} {s : LayoutSettings α} {k : Nat} {geometry : LaneGeometry α}
    (h : (g.stagedCanvas s).lanes[k]? = some geometry) :
    geometry.columnWidth = s.columnWidth geometry.nodeCount ∧
      geometry.width = Coordinate.ofNat (min geometry.columnCount s.columnsPerBand) *
        geometry.columnWidth := by
  have hdrawn := g.drawn_stagedCanvas s
  have hk : k < (g.lanes (α := α)).length :=
    hdrawn.length_lanes ▸ (List.getElem?_eq_some_iff.mp h).1
  rw [hdrawn.geometry_eq k _ geometry (List.getElem?_eq_getElem hk) h]
  exact ⟨rfl, rfl⟩

/-! ### Where entities stand -/

/-- The entities of a column of a lane from top to bottom, if there is such a column. -/
def rowsAt (g : Graph) (s : LayoutSettings α) (k c : Nat) : List Nat :=
  rowsOf g.staging.stage (((g.lanes (α := α))[k]?.bind fun lane =>
    (g.columns lane.members s.maxNodesPerColumn)[c]?).getD [])

theorem rowsAt_eq {g : Graph} {s : LayoutSettings α} {k c : Nat} {lane : Lane α} {column : List Nat}
    (hlane : g.lanes[k]? = some lane)
    (hcolumn : (g.columns lane.members s.maxNodesPerColumn)[c]? = some column) :
    g.rowsAt s k c = rowsOf g.staging.stage column := by
  unfold rowsAt
  rw [hlane, Option.bind_some, hcolumn, Option.getD_some]

/-- A column has no rows, or its rows are a piece of the ranking of its lane. -/
theorem rowsAt_eq_nil_or_perm (g : Graph) (s : LayoutSettings α) (k c : Nat) :
    g.rowsAt s k c = [] ∨ ∃ lane, (g.lanes (α := α))[k]? = some lane ∧
      (g.rowsAt s k c).Perm (((g.ranked lane.members).drop (c * max 1 s.maxNodesPerColumn)).take
        (max 1 s.maxNodesPerColumn)) := by
  unfold rowsAt
  cases hcolumn : (g.lanes (α := α))[k]?.bind fun lane =>
      (g.columns lane.members s.maxNodesPerColumn)[c]? with
  | none => exact .inl (by simp [rowsOf])
  | some column =>
      obtain ⟨lane, hlane, hat⟩ := Option.bind_eq_some_iff.mp hcolumn
      rw [columns, getElem?_chunks] at hat
      split at hat
      · cases hat
        exact .inr ⟨lane, hlane, rowsOf_perm _ _⟩
      · cases hat

/-- No column has more rows than the settings admit. -/
theorem length_rowsAt_le (g : Graph) (s : LayoutSettings α) (k c : Nat) :
    (g.rowsAt s k c).length ≤ max 1 s.maxNodesPerColumn := by
  rcases g.rowsAt_eq_nil_or_perm s k c with hnil | ⟨_, _, hperm⟩
  · rw [hnil]
    exact Nat.zero_le _
  · rw [hperm.length_eq]
    exact List.length_take_le _ _

/-- Where something stands in a drawing: in the middle of a column of its lane, and in a row
of that column. -/
structure WithinColumn (g : Graph) (s : LayoutSettings α) (p : Placed α)
    (geometry : LaneGeometry α) (row : Nat) : Prop where
  lane : (g.stagedCanvas s).lanes[p.groupIndex]? = some geometry
  column_lt : p.columnIndex < geometry.columnCount
  x_eq : p.x = s.columnCentre geometry p.columnIndex
  row_eq : (g.rowsAt s p.groupIndex p.columnIndex)[row]? = some p.node
  y_eq : p.y = s.rowHeight p.columnIndex (g.rowsAt s p.groupIndex p.columnIndex).length row

theorem withinColumn_of_mem_placed {g : Graph} {s : LayoutSettings α} {p : Placed α}
    (hp : p ∈ (g.stagedCanvas s).placed) : ∃ geometry row, g.WithinColumn s p geometry row := by
  have hdrawn := g.drawn_stagedCanvas s
  rw [hdrawn.placed_eq, List.mem_flatMap] at hp
  obtain ⟨⟨lane, geometry⟩, hzip, hp⟩ := hp
  obtain ⟨k, hk⟩ := List.mem_iff_getElem?.mp hzip
  obtain ⟨hlane, hgeometry⟩ := List.getElem?_zip_eq_some.mp hk
  obtain ⟨placed, hplaced, hp⟩ := List.mem_flatten.mp hp
  obtain ⟨c, column, hcolumn, hall⟩ := mem_laneColumns hplaced
  obtain ⟨hgroup, rfl, hx, row, hrow, hy⟩ := hall p hp
  rw [hdrawn.index_eq hlane hgeometry] at hgroup hx
  subst hgroup
  rw [← rowsAt_eq hlane hcolumn] at hrow hy
  have heq := hdrawn.geometry_eq _ lane geometry hlane hgeometry
  refine ⟨geometry, row, hgeometry, ?_, ?_, hrow, hy⟩
  · rw [heq]
    exact (List.getElem?_eq_some_iff.mp hcolumn).1
  · rw [heq]
    exact hx

/-- Every entity of the graph stands in a row of a column. -/
theorem withinColumn_placeAt (g : Graph) (s : LayoutSettings α) {i : Nat} (hi : i < g.entityCount) :
    ∃ geometry row, g.WithinColumn s (g.placeAt s i) geometry row := by
  obtain ⟨p, hp, rfl⟩ := g.exists_mem_placed s hi
  rw [placeAt_of_mem hp hi]
  exact withinColumn_of_mem_placed hp

end Graph

end CallAtlas
