import Mathlib
import CallAtlas.Proofs.Layout.Columns

/-!
# Who stands in which column

Laying out goes from lane to lane, from column to column and from row to row, and writes
what it places into a table by position. Distances aside, what is placed is a list of
**spots**: an entity, the index of its lane and that of its column. The loop over the
lanes comes down to one list (`map_foldl_addLane`), in which every entity has exactly one
spot (`nodup_nodes_spots`, `exists_ranked`). So the table holds for every entity the spot
that its rank in its lane tells (`placeAt_iff`), whatever order the rows of a column are
written in.
-/

namespace CallAtlas

variable {α : Type} [Coordinate α]

/-! ### Spots -/

/-- Who stands where, apart from distances: the position of the entity in the graph, the
index of its lane and that of its column. -/
structure Spot where
  node : Nat
  group : Nat
  column : Nat
deriving DecidableEq

/-- The spot of a placed entity. -/
def Placed.spot {α : Type} (p : Placed α) : Spot := ⟨p.node, p.groupIndex, p.columnIndex⟩

/-- A lane without its distances. -/
def LaneGeometry.flat (lane : LaneGeometry α) : LaneGeometry α :=
  { lane with x := Coordinate.ofNat 0, width := Coordinate.ofNat 0,
              columnWidth := Coordinate.ofNat 0 }

namespace Graph

/-- The spots of a lane with an index. -/
def laneSpots (g : Graph) (s : LayoutSettings α) (stage : Nat → Nat) (index : Nat)
    (lane : Lane α) : List Spot :=
  (g.columns lane.members s.maxNodesPerColumn).zipIdx.flatMap fun column =>
    (rowsOf stage column.1).map fun node => ⟨node, index, column.2⟩

/-- The geometry of a lane with an index, apart from distances. -/
def flatLane (g : Graph) (s : LayoutSettings α) (index : Nat) (lane : Lane α) : LaneGeometry α :=
  let columns := g.columns lane.members s.maxNodesPerColumn
  { name := lane.name, index, x := Coordinate.ofNat 0, width := Coordinate.ofNat 0,
    columnWidth := Coordinate.ofNat 0, columnCount := columns.length,
    bandCount := (columns.length + s.columnsPerBand - 1) / s.columnsPerBand,
    nodeCount := lane.members.length, totalOutDegree := lane.totalOutDegree,
    meanOutDegree := lane.meanOutDegree }

theorem columnCount_flatLane (g : Graph) (s : LayoutSettings α) (index : Nat) (lane : Lane α) :
    (g.flatLane s index lane).columnCount =
      lane.members.length ⌈/⌉ max 1 s.maxNodesPerColumn := by
  rw [← (g.ranked_perm lane.members).length_eq, ← length_chunks]
  rfl

theorem bandCount_flatLane (g : Graph) (s : LayoutSettings α) (index : Nat) (lane : Lane α) :
    (g.flatLane s index lane).bandCount =
      (g.flatLane s index lane).columnCount ⌈/⌉ max 1 s.maxColumnsPerGroup := by
  rw [Nat.ceilDiv_eq_add_pred_div]
  rfl

theorem map_spot_placeColumn (s : LayoutSettings α) (stage : Nat → Nat) (index : Nat)
    (left width : α) (column : List Nat × Nat) :
    (placeColumn s stage index left width column).map Placed.spot =
      (rowsOf stage column.1).map fun node => ⟨node, index, column.2⟩ := by
  have hspot : (placeColumn s stage index left width column).map Placed.spot =
      (rowsOf stage column.1).zipIdx.map ((fun node => ⟨node, index, column.2⟩) ∘ Prod.fst) := by
    unfold placeColumn
    rw [List.map_map]
    rfl
  rw [hspot, ← List.map_map, List.zipIdx_map_fst]

theorem map_spot_laneColumns (g : Graph) (s : LayoutSettings α) (stage : Nat → Nat) (index : Nat)
    (left : α) (lane : Lane α) :
    (g.laneColumns s stage index left lane).flatten.map Placed.spot =
      g.laneSpots s stage index lane := by
  unfold laneColumns laneSpots
  rw [List.map_flatten, List.map_map, List.flatMap_def]
  congr 1
  exact List.map_congr_left fun column _ => map_spot_placeColumn ..

/-- Laying out lanes one after the other lays each of them out at its index. -/
theorem map_foldl_addLane (g : Graph) (s : LayoutSettings α) (stage : Nat → Nat)
    (lanes : List (Lane α)) (c : Canvas α) :
    (lanes.foldl (Canvas.addLane g s stage) c).placed.map Placed.spot =
      c.placed.map Placed.spot ++
        (lanes.zipIdx c.lanes.length).flatMap (fun x => g.laneSpots s stage x.2 x.1) ∧
    (lanes.foldl (Canvas.addLane g s stage) c).lanes.map LaneGeometry.flat =
      c.lanes.map LaneGeometry.flat ++
        (lanes.zipIdx c.lanes.length).map fun x => g.flatLane s x.2 x.1 := by
  induction lanes generalizing c with
  | nil => simp
  | cons lane lanes ih =>
      have hplaced : (c.addLane g s stage lane).placed =
        c.placed ++ (g.laneColumns s stage c.lanes.length c.cursor lane).flatten := rfl
      have hlength : (c.addLane g s stage lane).lanes.length = c.lanes.length + 1 := by
        simp [Canvas.addLane]
      have hlanes : (c.addLane g s stage lane).lanes.map LaneGeometry.flat =
          c.lanes.map LaneGeometry.flat ++ [g.flatLane s c.lanes.length lane] := by
        unfold Canvas.addLane
        rw [List.map_append]
        rfl
      obtain ⟨hspots, hflat⟩ := ih (c.addLane g s stage lane)
      rw [List.foldl_cons, List.zipIdx_cons, List.flatMap_cons, List.map_cons]
      rw [hspots, hflat, hlength, hplaced, hlanes, List.map_append, map_spot_laneColumns]
      simp

/-- The spots of a graph, lane by lane. -/
def spots (g : Graph) (s : LayoutSettings α) : List Spot :=
  (g.lanes (α := α)).zipIdx.flatMap fun x => g.laneSpots s g.staging.stage x.2 x.1

theorem map_spot_placed (g : Graph) (s : LayoutSettings α) :
    (g.stagedCanvas s).placed.map Placed.spot = g.spots s :=
  (g.map_foldl_addLane s g.staging.stage g.lanes _).1

theorem map_flat_lanes (g : Graph) (s : LayoutSettings α) :
    (g.stagedCanvas s).lanes.map LaneGeometry.flat =
      (g.lanes (α := α)).zipIdx.map fun x => g.flatLane s x.2 x.1 :=
  (g.map_foldl_addLane s g.staging.stage g.lanes _).2

/-! ### Every entity has one spot -/

omit [Coordinate α] in
/-- The spots of a lane: the column of a member is told by its rank. -/
theorem mem_laneSpots {g : Graph} {s : LayoutSettings α} {stage : Nat → Nat} {index : Nat}
    {lane : Lane α} {spot : Spot} :
    spot ∈ g.laneSpots s stage index lane ↔ spot.group = index ∧
      ∃ r, (g.ranked lane.members)[r]? = some spot.node ∧
        r / max 1 s.maxNodesPerColumn = spot.column := by
  have hpos : 0 < max 1 s.maxNodesPerColumn := by omega
  obtain ⟨node, group, column⟩ := spot
  simp only [← mem_chunk_iff hpos, laneSpots, List.mem_flatMap, List.mem_map, Prod.exists,
    Spot.mk.injEq, List.mem_zipIdx_iff_getElem?, (rowsOf_perm _ _).mem_iff, columns,
    getElem?_chunks]
  constructor
  · rintro ⟨members, c, hmembers, i, hi, rfl, rfl, rfl⟩
    split at hmembers
    · cases hmembers
      exact ⟨rfl, hi⟩
    · cases hmembers
  · rintro ⟨rfl, hmem⟩
    refine ⟨_, column, if_pos ?_, node, hmem, rfl, rfl, rfl⟩
    by_contra hle
    rw [List.drop_eq_nil_of_le (Nat.le_of_not_lt hle)] at hmem
    simp at hmem

theorem mem_spots {g : Graph} {s : LayoutSettings α} {spot : Spot} :
    spot ∈ g.spots s ↔ ∃ lane, (g.lanes (α := α))[spot.group]? = some lane ∧
      ∃ r, (g.ranked lane.members)[r]? = some spot.node ∧
        r / max 1 s.maxNodesPerColumn = spot.column := by
  simp only [spots, List.mem_flatMap, Prod.exists, List.mem_zipIdx_iff_getElem?, mem_laneSpots]
  constructor
  · rintro ⟨lane, _, hlane, rfl, hspot⟩
    exact ⟨lane, hlane, hspot⟩
  · rintro ⟨lane, hlane, hspot⟩
    exact ⟨lane, spot.group, hlane, rfl, hspot⟩

theorem nodes_laneSpots_perm (g : Graph) (s : LayoutSettings α) (stage : Nat → Nat) (index : Nat)
    (lane : Lane α) : ((g.laneSpots s stage index lane).map (·.node)).Perm lane.members := by
  rw [← g.map_spot_laneColumns s stage index s.leftMargin lane, List.map_map]
  exact g.perm_nodes_laneColumns s stage index s.leftMargin lane

/-- No entity has two spots. -/
theorem nodup_nodes_spots (g : Graph) (s : LayoutSettings α) :
    ((g.spots s).map (·.node)).Nodup := by
  unfold spots
  rw [List.map_flatMap, List.nodup_flatMap]
  constructor
  · intro x hx
    have hlane : x.1 ∈ g.lanes := List.mem_of_getElem? (List.mem_zipIdx_iff_getElem?.mp hx)
    rw [(g.nodes_laneSpots_perm s _ x.2 x.1).nodup_iff]
    exact nodup_members hlane
  · -- Lanes with different names have no member in common.
    have hnames : (g.lanes (α := α)).zipIdx.Pairwise fun x y => x.1.name ≠ y.1.name := by
      have h := g.nodup_names_lanes (α := α)
      rw [← List.zipIdx_map_fst 0 (g.lanes (α := α)), List.map_map] at h
      exact List.pairwise_map.mp h
    refine hnames.imp_of_mem ?_
    intro x y hx hy hne i hix hiy
    have hlane : ∀ z ∈ (g.lanes (α := α)).zipIdx,
        i ∈ (g.laneSpots s g.staging.stage z.2 z.1).map (·.node) → (g.node i).group = z.1.name := by
      intro z hz hi
      have hmem := List.mem_of_getElem? (List.mem_zipIdx_iff_getElem?.mp hz)
      rw [(g.nodes_laneSpots_perm s _ z.2 z.1).mem_iff] at hi
      exact ((mem_members hmem).mp hi).2
    exact hne ((hlane x hx hix).symm.trans (hlane y hy hiy))

/-- The table of places holds what is on the canvas. -/
theorem placeAt_of_mem {g : Graph} {s : LayoutSettings α} {p : Placed α}
    (hp : p ∈ (g.stagedCanvas s).placed) (hlt : p.node < g.entityCount) :
    g.placeAt s p.node = p := by
  have hnodup : (((g.stagedCanvas s).placed.map fun p => (p.node, p)).map Prod.fst).Nodup := by
    have h := g.nodup_nodes_spots s
    rw [← map_spot_placed, List.map_map] at h
    rw [List.map_map]
    exact h
  have hfound : (g.places s)[p.node]? = some p := by
    unfold places
    rw [tabulate_eq]
    exact getElem?_writeAll_of_mem hnodup (List.mem_map_of_mem hp)
      (by rw [Array.size_replicate]; exact hlt)
  unfold placeAt
  rw [hfound, Option.getD_some]

/-- An entity is placed at its spot. -/
theorem placeAt_of_mem_spots {g : Graph} {s : LayoutSettings α} {spot : Spot}
    (h : spot ∈ g.spots s) (hlt : spot.node < g.entityCount) :
    (g.placeAt s spot.node).groupIndex = spot.group ∧
      (g.placeAt s spot.node).columnIndex = spot.column := by
  rw [← map_spot_placed] at h
  obtain ⟨p, hp, rfl⟩ := List.mem_map.mp h
  have hplace : g.placeAt s p.spot.node = p := placeAt_of_mem hp hlt
  rw [hplace]
  exact ⟨rfl, rfl⟩

/-- An entity of a lane is placed by its rank. -/
theorem placeAt_of_ranked {g : Graph} (s : LayoutSettings α) {k r i : Nat} {lane : Lane α}
    (hlane : g.lanes[k]? = some lane) (hr : (g.ranked lane.members)[r]? = some i) :
    (g.placeAt s i).groupIndex = k ∧
      (g.placeAt s i).columnIndex = r / max 1 s.maxNodesPerColumn := by
  have hmem : i ∈ lane.members := (g.ranked_perm _).mem_iff.mp (List.mem_of_getElem? hr)
  have hspot : ⟨i, k, r / max 1 s.maxNodesPerColumn⟩ ∈ g.spots s :=
    mem_spots.mpr ⟨lane, hlane, r, hr, rfl⟩
  exact placeAt_of_mem_spots hspot ((mem_members (List.mem_of_getElem? hlane)).mp hmem).1

/-- Every entity is in the lane of its group, under some rank. -/
theorem exists_ranked (g : Graph) {i : Nat} (hi : i < g.entityCount) :
    ∃ (k : Nat) (lane : Lane α) (r : Nat), g.lanes[k]? = some lane ∧ lane.name = (g.node i).group ∧
      (g.ranked lane.members)[r]? = some i := by
  have hname : (g.node i).group ∈ (g.lanes (α := α)).map (·.name) :=
    g.names_lanes_perm.mem_iff.mpr (mem_groups.mpr ⟨i, hi, rfl⟩)
  obtain ⟨lane, hlane, hname⟩ := List.mem_map.mp hname
  obtain ⟨k, hk⟩ := List.mem_iff_getElem?.mp hlane
  have hmem : i ∈ g.ranked lane.members := by
    rw [(g.ranked_perm _).mem_iff, mem_members hlane]
    exact ⟨hi, hname.symm⟩
  obtain ⟨r, hr⟩ := List.mem_iff_getElem?.mp hmem
  exact ⟨k, lane, r, hk, hname, hr⟩

/-- Every entity is on the canvas. -/
theorem exists_mem_placed (g : Graph) (s : LayoutSettings α) {i : Nat} (hi : i < g.entityCount) :
    ∃ p ∈ (g.stagedCanvas s).placed, p.node = i := by
  obtain ⟨k, lane, r, hlane, _, hr⟩ := g.exists_ranked (α := α) hi
  have hspot : ⟨i, k, r / max 1 s.maxNodesPerColumn⟩ ∈ g.spots s :=
    mem_spots.mpr ⟨lane, hlane, r, hr, rfl⟩
  rw [← map_spot_placed] at hspot
  obtain ⟨p, hp, heq⟩ := List.mem_map.mp hspot
  exact ⟨p, hp, congrArg Spot.node heq⟩

theorem node_placeAt {g : Graph} {s : LayoutSettings α} {i : Nat} (hi : i < g.entityCount) :
    (g.placeAt s i).node = i := by
  obtain ⟨p, hp, rfl⟩ := g.exists_mem_placed s hi
  rw [placeAt_of_mem hp hi]

/-- Who stands in a column of a lane: the members whose ranks are in the column's
range. -/
theorem placeAt_iff {g : Graph} {s : LayoutSettings α} {i k c : Nat} {lane : Lane α}
    (hlane : g.lanes[k]? = some lane) (hi : i < g.entityCount) :
    ((g.placeAt s i).groupIndex = k ∧ (g.placeAt s i).columnIndex = c) ↔
      i ∈ ((g.ranked lane.members).drop (c * max 1 s.maxNodesPerColumn)).take
        (max 1 s.maxNodesPerColumn) := by
  rw [mem_chunk_iff (by omega)]
  obtain ⟨k', lane', r, hlane', _, hr⟩ := g.exists_ranked (α := α) hi
  obtain ⟨hgroup, hcolumn⟩ := placeAt_of_ranked s hlane' hr
  constructor
  · rintro ⟨rfl, rfl⟩
    rw [hgroup, hlane'] at hlane
    cases hlane
    exact ⟨r, hr, hcolumn.symm⟩
  · rintro ⟨r', hr', rfl⟩
    exact placeAt_of_ranked s hlane hr'

end Graph

end CallAtlas
