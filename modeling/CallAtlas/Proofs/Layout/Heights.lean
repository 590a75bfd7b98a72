import Mathlib
import CallAtlas.Proofs.Layout.Lanes
import CallAtlas.Proofs.Layout.Mirroring

/-!
# Heights keep their distance

Without rounding, and with settings that pass the checks, the entities of a column stay
within the height of their band and keep the least spacing, and bands that are stacked keep
it too.

**A column fits its band.** Rows are spread evenly over the height of a band, or set at the
least spacing where that is more. In the first case they end within the band as the settings
have it, in the second within what a full column needs, and a band has room for both
(`rowOffset_mem_Icc`). That takes settings whose capacity is not the largest machine word, or
no room is counted for a full column (`Stackable`).

Crossing reduction does not matter: the entities of a column stand in the rows of the column
before and after it (`Graph.exists_rows`), so whatever is true of all rows is true of them.
-/

namespace CallAtlas

namespace LayoutSettings

/-- The height of a band: what the settings say, or what a full column needs. -/
def room (s : LayoutSettings ℝ) : ℝ :=
  max s.bandHeight ((s.maxNodesPerColumn + 1) * s.minNodeSpacing)

/-- Where a band starts, counted from the top. -/
def bandStart (s : LayoutSettings ℝ) (band : Nat) : ℝ :=
  s.topMargin + band * (s.room + s.bandGap)

/-- Settings that pass the checks, with a capacity that leaves a machine word for one more. -/
structure Stackable (s : LayoutSettings ℝ) : Prop extends s.Drawable where
  capacity_lt : s.maxNodesPerColumn + 1 < 2 ^ 64

theorem bandExtent_eq (s : LayoutSettings ℝ) : s.bandExtent = s.room := by
  simp [bandExtent, room, Coordinate.larger, Coordinate.ofNat]

theorem Stackable.bandTop_eq {s : LayoutSettings ℝ} (hs : s.Stackable) (column : Nat) :
    s.bandTop column = s.bandStart (column / s.maxColumnsPerGroup) := by
  simp [bandTop, bandStart, s.bandExtent_eq, hs.columnsPerBand_eq, Coordinate.ofNat]

/-! ### Rows of a column -/

/-- How far below the top of its band a row is. -/
noncomputable def rowOffset (s : LayoutSettings ℝ) (count row : Nat) : ℝ := s.spacing count * (row + 1)

theorem Stackable.rowHeight_eq {s : LayoutSettings ℝ} (hs : s.Stackable) (column count row : Nat) :
    s.rowHeight column count row =
      s.bandStart (column / s.maxColumnsPerGroup) + s.rowOffset count row := by
  simp [rowHeight, rowOffset, hs.bandTop_eq, Coordinate.ofNat]

theorem spacing_eq (s : LayoutSettings ℝ) (count : Nat) :
    s.spacing count = max (s.bandHeight / (count + 1)) s.minNodeSpacing := by
  simp [spacing, Coordinate.larger, Coordinate.ofNat]

theorem minNodeSpacing_le_spacing (s : LayoutSettings ℝ) (count : Nat) :
    s.minNodeSpacing ≤ s.spacing count := by
  rw [spacing_eq]
  exact le_max_right _ _

section Drawable

variable {s : LayoutSettings ℝ} (hs : s.Drawable)

include hs

theorem Drawable.minNodeSpacing_nonneg : 0 ≤ s.minNodeSpacing :=
  hs.size_nonneg ("layout.min_node_spacing", _) (by simp [sizes])

theorem Drawable.bandHeight_nonneg : 0 ≤ s.bandHeight :=
  hs.size_nonneg ("layout.band_height", _) (by simp [sizes])

theorem Drawable.bandGap_nonneg : 0 ≤ s.bandGap :=
  hs.size_nonneg ("layout.band_gap", _) (by simp [sizes])

theorem Drawable.spacing_nonneg (count : Nat) : 0 ≤ s.spacing count :=
  hs.minNodeSpacing_nonneg.trans (s.minNodeSpacing_le_spacing count)

/-- The first row is the least spacing below the top of the band at least, and the last one
is not below its bottom. -/
theorem Drawable.rowOffset_mem_Icc {count row : Nat} (hrow : row < count)
    (hcount : count ≤ s.maxNodesPerColumn) :
    s.rowOffset count row ∈ Set.Icc s.minNodeSpacing s.room := by
  have hrow' : (row : ℝ) + 1 ≤ count := by exact_mod_cast hrow
  have hcount' : (count : ℝ) ≤ s.maxNodesPerColumn := by exact_mod_cast hcount
  have hpos : (0 : ℝ) < count + 1 := by positivity
  unfold rowOffset
  constructor
  · calc s.minNodeSpacing
        ≤ s.spacing count := s.minNodeSpacing_le_spacing count
      _ ≤ s.spacing count * (row + 1) :=
          le_mul_of_one_le_right (hs.spacing_nonneg count) (by simp)
  · rw [spacing_eq, max_mul_of_nonneg _ _ (by positivity)]
    refine max_le_max ?_ ?_
    · -- Evenly spread, the last row is above the end of the band.
      rw [div_mul_eq_mul_div, div_le_iff₀ hpos]
      exact mul_le_mul_of_nonneg_left (by linarith) hs.bandHeight_nonneg
    · rw [mul_comm]
      exact mul_le_mul_of_nonneg_right (by linarith) hs.minNodeSpacing_nonneg

/-- Rows of one column keep the least spacing. -/
theorem Drawable.minNodeSpacing_le_abs_sub {count row row' : Nat} (h : row ≠ row') :
    s.minNodeSpacing ≤ |s.rowOffset count row - s.rowOffset count row'| := by
  have hne : row + 1 ≠ row' + 1 := by omega
  have hapart := le_abs_mul_sub_mul (hs.spacing_nonneg count) hne
  push_cast at hapart
  rw [rowOffset, rowOffset, mul_comm, mul_comm (s.spacing count)]
  exact (s.minNodeSpacing_le_spacing count).trans hapart

theorem Drawable.room_nonneg : 0 ≤ s.room := hs.bandHeight_nonneg.trans (le_max_left _ _)

theorem Drawable.topMargin_le_bandStart (band : Nat) : s.topMargin ≤ s.bandStart band :=
  le_add_of_nonneg_right
    (mul_nonneg (Nat.cast_nonneg band) (add_nonneg hs.room_nonneg hs.bandGap_nonneg))

/-- A band ends before the next one starts. -/
theorem Drawable.bandStart_add_room_le {band band' : Nat} (h : band < band') :
    s.bandStart band + s.room ≤ s.bandStart band' := by
  have hband : (band : ℝ) + 1 ≤ band' := by exact_mod_cast h
  have hgap := hs.bandGap_nonneg
  have hmul := mul_le_mul_of_nonneg_right hband (add_nonneg hs.room_nonneg hgap)
  unfold bandStart
  linarith

end Drawable

end LayoutSettings

/-! ### Bands of a drawing -/

namespace Graph

/-- A lane has as many bands as its columns need. -/
theorem bandCount_stagedCanvas {g : Graph} {s : LayoutSettings ℝ} {k : Nat}
    {geometry : LaneGeometry ℝ} (h : (g.stagedCanvas s).lanes[k]? = some geometry) :
    geometry.bandCount = geometry.columnCount ⌈/⌉ s.columnsPerBand := by
  have hdrawn := g.drawn_stagedCanvas s
  have hk : k < (g.lanes (α := ℝ)).length :=
    hdrawn.length_lanes ▸ (List.getElem?_eq_some_iff.mp h).1
  rw [hdrawn.geometry_eq k _ geometry (List.getElem?_eq_getElem hk) h]
  exact g.bandCount_flatLane s k _

/-- A drawing has the bands of each of its lanes. -/
theorem bandCount_le_bands {g : Graph} {s : LayoutSettings ℝ} {geometry : LaneGeometry ℝ}
    (h : geometry ∈ (g.stagedCanvas s).lanes) : geometry.bandCount ≤ g.bands s :=
  (isGreatest_foldl_max (·.bandCount) (g.stagedCanvas s).lanes 0).2 (Or.inr ⟨geometry, h, rfl⟩)

section Real

variable {g : Graph} {s : LayoutSettings ℝ} (hs : s.Stackable)

include hs

theorem band_lt_bands {i : Nat} (hi : i < g.entityCount) :
    (g.positionAt s i).columnIndex / s.maxColumnsPerGroup < g.bands s := by
  obtain ⟨geometry, _, hwithin⟩ := g.withinColumn_placeAt s hi
  have hpos : 0 < s.columnsPerBand := by
    unfold LayoutSettings.columnsPerBand
    omega
  have hlt : (g.placeAt s i).columnIndex / s.columnsPerBand < geometry.bandCount := by
    rw [bandCount_stagedCanvas hwithin.lane, lt_ceilDiv_iff hpos]
    exact (Nat.div_mul_le_self _ _).trans_lt hwithin.column_lt
  rw [← hs.columnsPerBand_eq]
  exact hlt.trans_le (bandCount_le_bands (List.mem_of_getElem? hwithin.lane))

/-- The height of a drawing leaves a margin below its last band. -/
theorem height_layout (hne : g.isEmpty = false) {band : Nat} (h : band < g.bands s) :
    s.bandStart band + s.room ≤ (g.layout s).metrics.height - s.topMargin := by
  obtain ⟨last, hlast⟩ : ∃ last, g.bands s = last + 1 := ⟨g.bands s - 1, by omega⟩
  have hheight : (g.layout s).metrics.height = s.bandStart last + s.room + s.topMargin := by
    rw [layout_of_nonempty hne]
    simp only [metricsOf, hlast, s.bandExtent_eq, LayoutSettings.bandStart,
      Coordinate.ofNat, Nat.add_sub_cancel]
    push_cast
    ring
  rw [hheight, add_sub_cancel_right]
  rcases Nat.lt_or_eq_of_le (Nat.le_of_lt_succ (hlast ▸ h)) with hlt | rfl
  · have hroom := hs.room_nonneg
    have hstart := hs.bandStart_add_room_le hlt
    linarith
  · exact le_refl _

end Real

/-! ### Rows of a drawing -/

/-- Entities of one group stand in one lane. -/
theorem WellFormed.groupIndex_eq {g : Graph} (hg : g.WellFormed) (s : LayoutSettings ℝ) {i j : Nat}
    (hi : i < g.entityCount) (hj : j < g.entityCount) (h : (g.node i).group = (g.node j).group) :
    (g.positionAt s i).groupIndex = (g.positionAt s j).groupIndex := by
  obtain ⟨lane, hlane, hname, _⟩ := hg.position_layout s hi
  obtain ⟨lane', hlane', hname', _⟩ := hg.position_layout s hj
  have hat : ((g.layout s).groups.map (·.name))[(g.positionAt s i).groupIndex]? =
      some (g.node i).group := by
    rw [List.getElem?_map, hlane, Option.map_some, hname]
  have hat' : ((g.layout s).groups.map (·.name))[(g.positionAt s j).groupIndex]? =
      some (g.node i).group := by
    rw [List.getElem?_map, hlane', Option.map_some, hname', h]
  exact (List.getElem?_inj (List.getElem?_eq_some_iff.mp hat).1 (g.nodup_names_layout s)).mp
    (hat.trans hat'.symm)

end Graph

/-- Entities stand within the height of their bands, with the least spacing between them. -/
structure Layout.HeightsApart (g : Graph) (s : LayoutSettings ℝ) (l : Layout ℝ) : Prop where
  position : ∀ e ∈ g.entities, ∃ p, l.position? e.id = some p
  within_band : ∀ e ∈ g.entities, ∀ p, l.position? e.id = some p →
    p.y ∈ Set.Icc (s.bandStart (p.columnIndex / s.maxColumnsPerGroup))
      (s.bandStart (p.columnIndex / s.maxColumnsPerGroup) + s.room)
  /-- In one column, or in columns that are stacked, and then from top to bottom. -/
  stacked : ∀ e ∈ g.entities, ∀ p, l.position? e.id = some p →
    ∀ e' ∈ g.entities, ∀ p', l.position? e'.id = some p' → e ≠ e' → e.group = e'.group →
      p.columnIndex % s.maxColumnsPerGroup = p'.columnIndex % s.maxColumnsPerGroup →
      s.minNodeSpacing ≤ |p.y - p'.y| ∧
        (p.columnIndex / s.maxColumnsPerGroup < p'.columnIndex / s.maxColumnsPerGroup →
          p.y ≤ p'.y)
  within_drawing : ∀ e ∈ g.entities, ∀ p, l.position? e.id = some p →
    p.y ∈ Set.Icc s.topMargin (l.metrics.height - s.topMargin)

namespace Graph

/-- Where an entity stands: in a row of its column, and no other entity of the column in the
same one. -/
theorem exists_rowOffset {g : Graph} {s : LayoutSettings ℝ} (hs : s.Stackable) :
    ∃ row : Nat → Nat,
      (∀ i < g.entityCount, (g.positionAt s i).y =
          s.bandStart ((g.positionAt s i).columnIndex / s.maxColumnsPerGroup) +
            s.rowOffset (g.columnmates s i).length (row i) ∧
        s.rowOffset (g.columnmates s i).length (row i) ∈ Set.Icc s.minNodeSpacing s.room) ∧
      ∀ i < g.entityCount, ∀ j < g.entityCount, i ≠ j → g.columnAt? s i = g.columnAt? s j →
        row i ≠ row j := by
  obtain ⟨row, hrow, hne⟩ := g.exists_rows s
  refine ⟨row, ?_, hne⟩
  intro i hi
  obtain ⟨hlt, hy⟩ := hrow i hi
  have hcount : (g.columnmates s i).length ≤ s.maxNodesPerColumn := by
    have hle := g.length_rowsAt_le s (g.placeAt s i).groupIndex (g.placeAt s i).columnIndex
    have hpos := hs.maxNodesPerColumn_ne_zero
    unfold columnmates
    omega
  exact ⟨hy.trans (hs.rowHeight_eq _ _ _), hs.rowOffset_mem_Icc hlt hcount⟩

theorem y_mem_Icc {g : Graph} {s : LayoutSettings ℝ} (hs : s.Stackable) {i : Nat}
    (hi : i < g.entityCount) :
    (g.positionAt s i).y ∈
      Set.Icc (s.bandStart ((g.positionAt s i).columnIndex / s.maxColumnsPerGroup))
        (s.bandStart ((g.positionAt s i).columnIndex / s.maxColumnsPerGroup) + s.room) := by
  obtain ⟨row, hrow, _⟩ := exists_rowOffset (g := g) hs
  obtain ⟨hy, hlow, hhigh⟩ := hrow i hi
  have hspacing := hs.minNodeSpacing_nonneg
  rw [hy]
  constructor <;> linarith

/-- Of two entities in different bands, the one of the higher band keeps the least spacing
from the other. -/
theorem y_add_le {g : Graph} {s : LayoutSettings ℝ} (hs : s.Stackable) {i j : Nat}
    (hi : i < g.entityCount) (hj : j < g.entityCount)
    (h : (g.positionAt s i).columnIndex / s.maxColumnsPerGroup <
      (g.positionAt s j).columnIndex / s.maxColumnsPerGroup) :
    (g.positionAt s i).y + s.minNodeSpacing ≤ (g.positionAt s j).y := by
  obtain ⟨row, hrow, _⟩ := exists_rowOffset (g := g) hs
  obtain ⟨hy, hlow, _⟩ := hrow j hj
  have hhigh := (y_mem_Icc hs hi).2
  have hband := hs.bandStart_add_room_le h
  linarith

/-- Two entities of one column keep the least spacing. -/
theorem minNodeSpacing_le_abs_y {g : Graph} {s : LayoutSettings ℝ} (hs : s.Stackable) {i j : Nat}
    (hi : i < g.entityCount) (hj : j < g.entityCount) (hne : i ≠ j)
    (hcolumn : g.columnAt? s i = g.columnAt? s j) :
    s.minNodeSpacing ≤ |(g.positionAt s i).y - (g.positionAt s j).y| := by
  obtain ⟨row, hrow, hrows⟩ := exists_rowOffset (g := g) hs
  have hat := hcolumn
  rw [columnAt?_of_lt hi, columnAt?_of_lt hj, Option.some_inj, Prod.mk.injEq] at hat
  have hmates : g.columnmates s j = g.columnmates s i := by
    rw [columnmates, columnmates, hat.1, hat.2]
  have hindex : (g.positionAt s j).columnIndex = (g.positionAt s i).columnIndex := hat.2.symm
  rw [(hrow i hi).1, (hrow j hj).1, hmates, hindex, add_sub_add_left_eq_sub]
  exact hs.minNodeSpacing_le_abs_sub (hrows i hi j hj hne hcolumn)

/-- **Heights keep their distance.** For every graph and all settings that pass the checks
and whose capacity is not the largest machine word, whatever the reduction of crossings has
mirrored, entities stand within the height of their bands and within the margins of the
drawing, and those of one column or of stacked columns keep the least spacing. -/
theorem layout_heightsApart {g : Graph} (hg : g.WellFormed) {s : LayoutSettings ℝ}
    (hs : s.Accepted) (hcapacity : s.maxNodesPerColumn + 1 < 2 ^ 64) :
    (g.layout s).HeightsApart g s := by
  replace hs : s.Stackable := ⟨LayoutSettings.accepted_iff.mp hs, hcapacity⟩
  -- An entity is found at its index, and its position there.
  have hposition : ∀ e ∈ g.entities, ∀ p, (g.layout s).position? e.id = some p →
      ∃ i < g.entityCount, g.node i = e ∧ g.positionAt s i = p := by
    intro e he p hp
    obtain ⟨i, hi, rfl⟩ := mem_entities.mp he
    rw [hg.position?_layout s hi] at hp
    exact ⟨i, hi, rfl, Option.some.inj hp⟩
  refine ⟨?_, ?_, ?_, ?_⟩
  · intro e he
    obtain ⟨i, hi, rfl⟩ := mem_entities.mp he
    exact ⟨_, hg.position?_layout s hi⟩
  · intro e he p hp
    obtain ⟨i, hi, rfl, rfl⟩ := hposition e he p hp
    exact y_mem_Icc hs hi
  · intro e he p hp e' he' p' hp' hne hgroup hmod
    obtain ⟨i, hi, rfl, rfl⟩ := hposition e he p hp
    obtain ⟨j, hj, rfl, rfl⟩ := hposition e' he' p' hp'
    have hspacing := hs.minNodeSpacing_nonneg
    rcases Nat.lt_trichotomy ((g.positionAt s i).columnIndex / s.maxColumnsPerGroup)
      ((g.positionAt s j).columnIndex / s.maxColumnsPerGroup) with hlt | heq | hlt
    · have hle := y_add_le hs hi hj hlt
      refine ⟨?_, fun _ => by linarith⟩
      rw [abs_sub_comm]
      exact le_abs.mpr (.inl (by linarith))
    · -- In one band, the columns are the same.
      have hcolumn : (g.positionAt s i).columnIndex = (g.positionAt s j).columnIndex := by
        rw [← Nat.div_add_mod (g.positionAt s i).columnIndex s.maxColumnsPerGroup, heq, hmod,
          Nat.div_add_mod]
      refine ⟨?_, fun hlt => absurd heq hlt.ne⟩
      refine minNodeSpacing_le_abs_y hs hi hj (fun h => hne (congrArg g.node h)) ?_
      rw [columnAt?_of_lt hi, columnAt?_of_lt hj]
      exact congrArg some (Prod.ext (hg.groupIndex_eq s hi hj hgroup) hcolumn)
    · have hle := y_add_le hs hj hi hlt
      exact ⟨le_abs.mpr (.inl (by linarith)), fun h => absurd h hlt.asymm⟩
  · intro e he p hp
    obtain ⟨i, hi, rfl, rfl⟩ := hposition e he p hp
    obtain ⟨hlow, hhigh⟩ := y_mem_Icc hs hi
    have hne : g.isEmpty = false := by
      rw [isEmpty, Array.isEmpty_eq_false_iff_exists_mem]
      exact ⟨_, he⟩
    exact ⟨(hs.topMargin_le_bandStart _).trans hlow,
      hhigh.trans (height_layout hs hne (band_lt_bands hs hi))⟩

/-- With one column to a band, all columns of the ring are stacked. -/
theorem layout_heightsApart_ring :
    let s := { LayoutSettings.standard (α := ℝ) with maxNodesPerColumn := 2, maxColumnsPerGroup := 1 }
    ring.WellFormed ∧ s.Accepted ∧ s.maxNodesPerColumn + 1 < 2 ^ 64 ∧
      ∃ p q, (ring.layout s).position? "m.js:a:1" = some p ∧
        (ring.layout s).position? "m.js:d:1" = some q ∧ 28 ≤ |p.y - q.y| := by
  intro s
  have hg : ring.WellFormed := wellFormed_ofInsertions _ _
  have hs : s.Accepted := LayoutSettings.accepted_standard (by decide) (by decide)
  have hcapacity : s.maxNodesPerColumn + 1 < 2 ^ 64 := by
    change 3 < 2 ^ 64
    norm_num
  refine ⟨hg, hs, hcapacity, ?_⟩
  have ha : ring.node 0 ∈ ring.entities := mem_entities.mpr ⟨0, by decide +kernel, rfl⟩
  have hd : ring.node 3 ∈ ring.entities := mem_entities.mpr ⟨3, by decide +kernel, rfl⟩
  have hida : (ring.node 0).id = "m.js:a:1" := by decide +kernel
  have hidd : (ring.node 3).id = "m.js:d:1" := by decide +kernel
  have happart := layout_heightsApart hg hs hcapacity
  obtain ⟨p, hp⟩ := happart.position _ ha
  obtain ⟨q, hq⟩ := happart.position _ hd
  have hne : ring.node 0 ≠ ring.node 3 := fun h => by simpa [hida, hidd] using congrArg Entity.id h
  have hgroup : (ring.node 0).group = (ring.node 3).group := by decide +kernel
  have hspacing := (happart.stacked _ ha p hp _ hd q hq hne hgroup (by simp [s, Nat.mod_one])).1
  have hleast : s.minNodeSpacing = 28 := by norm_num [s, LayoutSettings.standard, Coordinate.ofNat]
  exact ⟨p, q, hida ▸ hp, hidd ▸ hq, hleast ▸ hspacing⟩

end Graph

end CallAtlas
