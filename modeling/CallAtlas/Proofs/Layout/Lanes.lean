import Mathlib
import CallAtlas.Proofs.Graph.Insertion
import CallAtlas.Proofs.Layout.Canvas
import CallAtlas.Proofs.Layout.Partition
import CallAtlas.Settings.Basic

/-!
# Lanes stand apart

Without rounding, and with settings that pass the checks, lanes stand side by side with the
gap between them, and every entity stands within its lane, half a column away from both
edges at least.

**One running sum.** The left edge of a lane is the left margin and, for every lane before
it, its width and a gap (`Canvas.SideBySide`). Laying out one lane keeps this, so a whole
drawing has it. The distance of neighbours, the order of any two lanes and the width of the
drawing are differences of such sums.

**One column.** A lane is as wide as the columns that it shows, and a column of index `c` is
shown at place `c` modulo the columns of a band, which is one of those (`succ_mod_le`). That
keeps entities within their lane, whether or not its columns wrap.
-/

namespace CallAtlas

/-! ### Settings that pass the checks -/

namespace LayoutSettings

/-- Settings without rounding pass the checks. Every number is finite, and how numbers are
written matters only to the report of a failure. -/
def Accepted (s : LayoutSettings ℝ) : Prop := ∃ text, s.defect? (fun _ => true) text = none

/-- What settings that pass the checks promise. -/
structure Drawable (s : LayoutSettings ℝ) : Prop where
  maxNodesPerColumn_ne_zero : s.maxNodesPerColumn ≠ 0
  maxColumnsPerGroup_ne_zero : s.maxColumnsPerGroup ≠ 0
  size_nonneg : ∀ size ∈ s.sizes, 0 ≤ size.2
  base_le_max : s.baseColumnWidth ≤ s.maxColumnWidth

theorem accepted_iff {s : LayoutSettings ℝ} : s.Accepted ↔ s.Drawable := by
  have hsizes : s.sizes.find? (!isSize (fun _ => true) ·.2) = none ↔
      ∀ size ∈ s.sizes, 0 ≤ size.2 := by
    simp [isSize, Coordinate.less, Coordinate.ofNat]
  have hwidth : Coordinate.less s.maxColumnWidth s.baseColumnWidth = false ↔
      s.baseColumnWidth ≤ s.maxColumnWidth := by
    simp [Coordinate.less]
  constructor
  · rintro ⟨text, h⟩
    unfold defect? at h
    by_cases hnodes : s.maxNodesPerColumn = 0
    · simp [hnodes] at h
    by_cases hcolumns : s.maxColumnsPerGroup = 0
    · simp [hnodes, hcolumns] at h
    rw [if_neg hnodes, if_neg hcolumns] at h
    cases hfind : s.sizes.find? (!isSize (fun _ => true) ·.2) with
    | some size => simp [hfind] at h
    | none =>
        refine ⟨hnodes, hcolumns, hsizes.mp hfind, hwidth.mp ?_⟩
        simpa [hfind] using h
  · rintro ⟨hnodes, hcolumns, hnonneg, hle⟩
    refine ⟨fun _ => "", ?_⟩
    unfold defect?
    rw [if_neg hnodes, if_neg hcolumns, hsizes.mpr hnonneg]
    simp [hwidth.mpr hle]

/-- The standard settings pass the checks, with any capacities but zero. -/
theorem accepted_standard {nodes columns : Nat} (hnodes : nodes ≠ 0) (hcolumns : columns ≠ 0) :
    Accepted { standard (α := ℝ) with
      maxNodesPerColumn := nodes, maxColumnsPerGroup := columns } := by
  refine accepted_iff.mpr ⟨hnodes, hcolumns, ?_, ?_⟩
  · simp [sizes, standard, Coordinate.ofNat]
  · norm_num [standard, Coordinate.ofNat]

theorem Drawable.columnsPerBand_eq {s : LayoutSettings ℝ} (hs : s.Drawable) :
    s.columnsPerBand = s.maxColumnsPerGroup := by
  have hpos := hs.maxColumnsPerGroup_ne_zero
  unfold columnsPerBand
  omega

/-! ### Columns of a lane -/

/-- Columns are at least as wide as the settings say at first, and no wider than they admit. -/
theorem Drawable.columnWidth_mem_Icc {s : LayoutSettings ℝ} (hs : s.Drawable) (count : Nat) :
    s.columnWidth count ∈ Set.Icc s.baseColumnWidth s.maxColumnWidth := by
  have hper : 0 ≤ s.columnWidthPerNode :=
    hs.size_nonneg ("layout.column_width_per_node", _) (by simp [sizes])
  have hgrow : 0 ≤ s.columnWidthPerNode * (count : ℝ) := mul_nonneg hper (Nat.cast_nonneg count)
  change min (s.baseColumnWidth + s.columnWidthPerNode * (count : ℝ)) s.maxColumnWidth ∈ _
  exact ⟨le_min (by linarith) hs.base_le_max, min_le_right _ _⟩

/-- The place at which a column is shown is one of those that its lane shows. -/
theorem succ_mod_le {perBand count c : Nat} (hperBand : 0 < perBand) (hc : c < count) :
    c % perBand + 1 ≤ min count perBand := by
  have hlt := Nat.mod_lt c hperBand
  have hle := Nat.mod_le c perBand
  omega

theorem columnCentre_eq (s : LayoutSettings ℝ) (geometry : LaneGeometry ℝ) (c : Nat) :
    s.columnCentre geometry c = geometry.x + ((c % s.columnsPerBand : ℕ) : ℝ) * geometry.columnWidth +
      geometry.columnWidth / 2 := by
  simp [columnCentre, Coordinate.ofNat]

/-- Multiples of a distance are that distance apart at least. -/
theorem le_abs_mul_sub_mul {d : ℝ} (hd : 0 ≤ d) {m n : ℕ} (h : m ≠ n) :
    d ≤ |(m : ℝ) * d - (n : ℝ) * d| := by
  have hone : (1 : ℝ) ≤ |(((m : ℤ) - (n : ℤ) : ℤ) : ℝ)| := by
    exact_mod_cast Int.one_le_abs (sub_ne_zero.mpr (Nat.cast_injective.ne h))
  push_cast at hone
  rw [← sub_mul, abs_mul, abs_of_nonneg hd]
  exact le_mul_of_one_le_left hd hone

/-- Columns at different places are a column apart at least. -/
theorem columnWidth_le_abs_sub (s : LayoutSettings ℝ) {geometry : LaneGeometry ℝ} {c c' : Nat}
    (hwidth : 0 ≤ geometry.columnWidth) (h : c % s.columnsPerBand ≠ c' % s.columnsPerBand) :
    geometry.columnWidth ≤ |s.columnCentre geometry c - s.columnCentre geometry c'| := by
  rw [columnCentre_eq, columnCentre_eq, add_sub_add_right_eq_sub, add_sub_add_left_eq_sub]
  exact le_abs_mul_sub_mul hwidth h

/-- Columns that a lane shows are half a column away from its edges at least. -/
theorem columnCentre_mem_Icc (s : LayoutSettings ℝ) {geometry : LaneGeometry ℝ} {c : Nat}
    (hcolumn : 0 ≤ geometry.columnWidth) (hc : c < geometry.columnCount)
    (hwidth : geometry.width =
      ((min geometry.columnCount s.columnsPerBand : ℕ) : ℝ) * geometry.columnWidth) :
    s.columnCentre geometry c ∈ Set.Icc (geometry.x + geometry.columnWidth / 2)
      (geometry.x + geometry.width - geometry.columnWidth / 2) := by
  have hperBand : 0 < s.columnsPerBand := by
    unfold columnsPerBand
    omega
  have hplace : ((c % s.columnsPerBand : ℕ) : ℝ) + 1 ≤
      ((min geometry.columnCount s.columnsPerBand : ℕ) : ℝ) := by
    exact_mod_cast succ_mod_le hperBand hc
  have hleft : 0 ≤ ((c % s.columnsPerBand : ℕ) : ℝ) * geometry.columnWidth :=
    mul_nonneg (Nat.cast_nonneg _) hcolumn
  have hright := mul_le_mul_of_nonneg_right hplace hcolumn
  rw [add_mul, one_mul, ← hwidth] at hright
  rw [columnCentre_eq]
  constructor
  · linarith
  · linarith

/-! ### Lanes side by side -/

/-- The left edge of a lane that comes after some others. -/
def leftEdge (s : LayoutSettings ℝ) (before : List (LaneGeometry ℝ)) : ℝ :=
  s.leftMargin + (before.map fun lane => lane.width + s.groupGap).sum

theorem leftEdge_append (s : LayoutSettings ℝ) (before after : List (LaneGeometry ℝ)) :
    s.leftEdge (before ++ after) =
      s.leftEdge before + (after.map fun lane => lane.width + s.groupGap).sum := by
  simp [leftEdge, add_assoc]

theorem leftEdge_take_succ (s : LayoutSettings ℝ) {lanes : List (LaneGeometry ℝ)} {k : Nat}
    {lane : LaneGeometry ℝ} (h : lanes[k]? = some lane) :
    s.leftEdge (lanes.take (k + 1)) = s.leftEdge (lanes.take k) + (lane.width + s.groupGap) := by
  rw [List.take_add_one, leftEdge_append, h]
  simp

/-- Lanes come from left to right. -/
theorem leftEdge_take_mono (s : LayoutSettings ℝ) {lanes : List (LaneGeometry ℝ)}
    (hnonneg : ∀ lane ∈ lanes, 0 ≤ lane.width + s.groupGap) {j k : Nat} (h : j ≤ k) :
    s.leftEdge (lanes.take j) ≤ s.leftEdge (lanes.take k) := by
  have htake : lanes.take k = lanes.take j ++ (lanes.take k).drop j := by
    conv_lhs => rw [← List.take_append_drop j (lanes.take k), List.take_take, Nat.min_eq_left h]
  rw [htake, leftEdge_append]
  refine le_add_of_nonneg_right (List.sum_nonneg ?_)
  intro x hx
  obtain ⟨lane, hlane, rfl⟩ := List.mem_map.mp hx
  exact hnonneg lane (List.mem_of_mem_take (List.mem_of_mem_drop hlane))

end LayoutSettings

/-- Every lane of a canvas starts where the ones before it end, a gap further. -/
structure Canvas.SideBySide (s : LayoutSettings ℝ) (c : Canvas ℝ) : Prop where
  cursor_eq : c.cursor = s.leftEdge c.lanes
  x_eq : ∀ k lane, c.lanes[k]? = some lane → lane.x = s.leftEdge (c.lanes.take k)

theorem Canvas.SideBySide.addLane {s : LayoutSettings ℝ} {c : Canvas ℝ} (h : c.SideBySide s)
    (g : Graph) (stage : Nat → Nat) (lane : Lane ℝ) :
    (c.addLane g s stage lane).SideBySide s := by
  rw [Graph.addLane_eq_geometryOf]
  refine ⟨?_, ?_⟩
  · dsimp only
    rw [LayoutSettings.leftEdge_append, h.cursor_eq]
    simp
  · intro k geometry hgeometry
    dsimp only at hgeometry ⊢
    rcases Nat.lt_or_ge k c.lanes.length with hk | hk
    · rw [List.getElem?_append_left hk] at hgeometry
      rw [List.take_append_of_le_length hk.le]
      exact h.x_eq k geometry hgeometry
    · -- The new lane starts at the cursor, after all the others.
      have hlt := (List.getElem?_eq_some_iff.mp hgeometry).1
      rw [List.length_append, List.length_singleton] at hlt
      obtain rfl : k = c.lanes.length := by omega
      rw [List.getElem?_concat_length] at hgeometry
      cases hgeometry
      rw [List.take_left]
      exact h.cursor_eq

namespace Graph

theorem sideBySide_stagedCanvas (g : Graph) (s : LayoutSettings ℝ) :
    (g.stagedCanvas s).SideBySide s := by
  unfold stagedCanvas canvas
  refine List.foldlRecOn (motive := fun c : Canvas ℝ => c.SideBySide s) g.lanes _ ?_ ?_
  · exact ⟨by simp [LayoutSettings.leftEdge], by simp⟩
  · intro c hc lane _
    exact hc.addLane g _ lane

end Graph

/-! ### What a layout shows -/

namespace Layout

/-- An entity stands at a position in a lane. -/
structure Places {α : Type} (l : Layout α) (e : Entity) (p : Position α) (lane : LaneGeometry α) :
    Prop where
  position : l.position? e.id = some p
  lane : l.groups[p.groupIndex]? = some lane

/-- Lanes stand side by side, and entities stand within them. -/
structure LanesApart (g : Graph) (s : LayoutSettings ℝ) (l : Layout ℝ) : Prop where
  /-- Each entity stands in the lane of its group. -/
  places : ∀ e ∈ g.entities, ∃ p lane, l.Places e p lane ∧ lane.name = e.group
  first_x : ∃ lane, l.groups[0]? = some lane ∧ lane.x = s.leftMargin
  next_x : ∀ k lane next, l.groups[k]? = some lane → l.groups[k + 1]? = some next →
    next.x = lane.x + lane.width + s.groupGap
  /-- The drawing ends a margin after the last lane. -/
  width_eq : ∃ lane, l.groups.getLast? = some lane ∧
    l.metrics.width = lane.x + lane.width + s.leftMargin
  within_lane : ∀ e ∈ g.entities, ∀ p lane, l.Places e p lane →
    p.x ∈ Set.Icc (lane.x + lane.columnWidth / 2) (lane.x + lane.width - lane.columnWidth / 2)
  /-- In one lane, columns are stacked or a column apart. -/
  same_lane : ∀ e ∈ g.entities, ∀ p lane, l.Places e p lane →
    ∀ e' ∈ g.entities, ∀ p', l.Places e' p' lane →
      if p.columnIndex % s.maxColumnsPerGroup = p'.columnIndex % s.maxColumnsPerGroup then
        p.x = p'.x
      else lane.columnWidth ≤ |p.x - p'.x|
  other_lane : ∀ e ∈ g.entities, ∀ p lane, l.Places e p lane →
    ∀ e' ∈ g.entities, ∀ p' lane', l.Places e' p' lane' → p.groupIndex < p'.groupIndex →
      p.x + (s.groupGap + (lane.columnWidth + lane'.columnWidth) / 2) ≤ p'.x
  columnWidth_mem : ∀ lane ∈ l.groups,
    lane.columnWidth ∈ Set.Icc s.baseColumnWidth s.maxColumnWidth

end Layout

namespace Graph

/-- Where the layout shows an entity. -/
theorem WellFormed.places_layout {α : Type} [Coordinate α] {g : Graph} (hg : g.WellFormed)
    {s : LayoutSettings α} {e : Entity} (he : e ∈ g.entities) {p : Position α}
    {lane : LaneGeometry α} (h : (g.layout s).Places e p lane) :
    ∃ i < g.entityCount, g.node i = e ∧ p = g.positionAt s i ∧
      ∃ row, g.WithinColumn s (g.placeAt s i) lane row := by
  obtain ⟨i, hi, rfl⟩ := mem_entities.mp he
  have hp := h.position
  rw [hg.position?_layout s hi] at hp
  cases hp
  obtain ⟨geometry, row, hwithin⟩ := g.withinColumn_placeAt s hi
  have hlane := h.lane
  rw [groups_layout] at hlane
  obtain rfl : geometry = lane := Option.some.inj (hwithin.lane.symm.trans hlane)
  exact ⟨i, hi, rfl, rfl, row, hwithin⟩

theorem WellFormed.exists_places_layout {α : Type} [Coordinate α] {g : Graph} (hg : g.WellFormed)
    (s : LayoutSettings α) {e : Entity} (he : e ∈ g.entities) :
    ∃ p lane, (g.layout s).Places e p lane ∧ lane.name = e.group := by
  obtain ⟨i, hi, rfl⟩ := mem_entities.mp he
  obtain ⟨lane, hlane, hname, _⟩ := hg.position_layout s hi
  exact ⟨_, lane, ⟨hg.position?_layout s hi, hlane⟩, hname⟩

section Real

variable {g : Graph} {s : LayoutSettings ℝ} (hs : s.Drawable)

include hs

theorem columnWidth_mem_Icc {k : Nat} {lane : LaneGeometry ℝ}
    (hlane : (g.stagedCanvas s).lanes[k]? = some lane) :
    lane.columnWidth ∈ Set.Icc s.baseColumnWidth s.maxColumnWidth := by
  rw [(width_stagedCanvas hlane).1]
  exact hs.columnWidth_mem_Icc _

theorem columnWidth_nonneg {k : Nat} {lane : LaneGeometry ℝ}
    (hlane : (g.stagedCanvas s).lanes[k]? = some lane) : 0 ≤ lane.columnWidth :=
  (hs.size_nonneg ("layout.base_column_width", s.baseColumnWidth)
    (by simp [LayoutSettings.sizes])).trans (columnWidth_mem_Icc hs hlane).1

theorem width_nonneg {k : Nat} {lane : LaneGeometry ℝ}
    (hlane : (g.stagedCanvas s).lanes[k]? = some lane) : 0 ≤ lane.width := by
  rw [(width_stagedCanvas hlane).2]
  exact mul_nonneg (Nat.cast_nonneg _) (columnWidth_nonneg hs hlane)

/-- A lane ends a gap before any lane after it. -/
theorem right_le_left {k k' : Nat} {lane lane' : LaneGeometry ℝ} (hkk' : k < k')
    (hlane : (g.stagedCanvas s).lanes[k]? = some lane)
    (hlane' : (g.stagedCanvas s).lanes[k']? = some lane') :
    lane.x + lane.width + s.groupGap ≤ lane'.x := by
  have hgap : 0 ≤ s.groupGap :=
    hs.size_nonneg ("layout.group_gap", _) (by simp [LayoutSettings.sizes])
  have hside := g.sideBySide_stagedCanvas s
  have hnonneg : ∀ lane ∈ (g.stagedCanvas s).lanes, 0 ≤ lane.width + s.groupGap := by
    intro lane hlane
    obtain ⟨j, hj⟩ := List.mem_iff_getElem?.mp hlane
    exact add_nonneg (width_nonneg hs hj) hgap
  have hmono := s.leftEdge_take_mono hnonneg (Nat.succ_le_of_lt hkk')
  rw [Nat.succ_eq_add_one, s.leftEdge_take_succ hlane, ← hside.x_eq k lane hlane,
    ← hside.x_eq k' lane' hlane'] at hmono
  linarith

theorem WithinColumn.x_mem_Icc {p : Placed ℝ} {lane : LaneGeometry ℝ} {row : Nat}
    (h : g.WithinColumn s p lane row) :
    p.x ∈ Set.Icc (lane.x + lane.columnWidth / 2) (lane.x + lane.width - lane.columnWidth / 2) := by
  rw [h.x_eq]
  exact s.columnCentre_mem_Icc (columnWidth_nonneg hs h.lane) h.column_lt
    (width_stagedCanvas h.lane).2

/-- In one lane, columns are stacked or a column apart. -/
theorem WithinColumn.x_eq_or_apart {p p' : Placed ℝ} {lane : LaneGeometry ℝ} {row row' : Nat}
    (h : g.WithinColumn s p lane row) (h' : g.WithinColumn s p' lane row') :
    if p.columnIndex % s.maxColumnsPerGroup = p'.columnIndex % s.maxColumnsPerGroup then p.x = p'.x
    else lane.columnWidth ≤ |p.x - p'.x| := by
  rw [h.x_eq, h'.x_eq, ← hs.columnsPerBand_eq]
  split
  · rename_i hcolumns
    rw [LayoutSettings.columnCentre, LayoutSettings.columnCentre, hcolumns]
  · rename_i hcolumns
    exact s.columnWidth_le_abs_sub (columnWidth_nonneg hs h.lane) hcolumns

/-- Between entities of different lanes there are half a column of each and the gap. -/
theorem WithinColumn.x_add_le {p p' : Placed ℝ} {lane lane' : LaneGeometry ℝ} {row row' : Nat}
    (h : g.WithinColumn s p lane row) (h' : g.WithinColumn s p' lane' row')
    (hlt : p.groupIndex < p'.groupIndex) :
    p.x + (s.groupGap + (lane.columnWidth + lane'.columnWidth) / 2) ≤ p'.x := by
  have hright := (h.x_mem_Icc hs).2
  have hleft := (h'.x_mem_Icc hs).1
  have hapart := right_le_left hs hlt h.lane h'.lane
  linarith

end Real

/-- There is a lane where there is an entity. -/
theorem lanes_ne_nil {g : Graph} (s : LayoutSettings ℝ) (hne : g.isEmpty = false) :
    (g.stagedCanvas s).lanes ≠ [] := by
  have hpos : 0 < g.entityCount := by
    rw [isEmpty, Array.isEmpty_eq_false_iff_exists_mem] at hne
    obtain ⟨e, he⟩ := hne
    exact Array.size_pos_of_mem he
  obtain ⟨lane, _, hwithin⟩ := g.withinColumn_placeAt s hpos
  exact List.ne_nil_of_mem (List.mem_of_getElem? hwithin.lane)

/-- The cursor has come to a gap after the last lane. -/
theorem cursor_stagedCanvas {g : Graph} {s : LayoutSettings ℝ} {lane : LaneGeometry ℝ}
    (h : (g.stagedCanvas s).lanes.getLast? = some lane) :
    (g.stagedCanvas s).cursor = lane.x + lane.width + s.groupGap := by
  have hside := g.sideBySide_stagedCanvas s
  have hpos : 0 < (g.stagedCanvas s).lanes.length := by
    cases hlanes : (g.stagedCanvas s).lanes with
    | nil => simp [hlanes] at h
    | cons => simp
  rw [List.getLast?_eq_getElem?] at h
  have hall := s.leftEdge_take_succ h
  rw [Nat.sub_add_cancel hpos, List.take_length, ← hside.x_eq _ lane h] at hall
  rw [hside.cursor_eq, hall, add_assoc]

/-- The width of a drawing ends a margin after the last lane. -/
theorem width_layout {g : Graph} {s : LayoutSettings ℝ} (hne : g.isEmpty = false)
    {lane : LaneGeometry ℝ} (h : (g.stagedCanvas s).lanes.getLast? = some lane) :
    (g.layout s).metrics.width = lane.x + lane.width + s.leftMargin := by
  rw [layout_of_nonempty hne]
  change (g.stagedCanvas s).cursor - s.groupGap + s.leftMargin = _
  rw [cursor_stagedCanvas h, add_sub_cancel_right]

/-- **Lanes never overlap.** For every graph that has entities and all settings that pass the
checks, the lanes of the layout stand side by side with the gap between them, entities stand
within their lanes, and two of them stand in one column, a column apart, or in different lanes
as far apart as these. -/
theorem layout_lanesApart {g : Graph} (hg : g.WellFormed) (hne : g.isEmpty = false)
    {s : LayoutSettings ℝ} (hs : s.Accepted) : (g.layout s).LanesApart g s := by
  replace hs := LayoutSettings.accepted_iff.mp hs
  have hside := g.sideBySide_stagedCanvas s
  have hlanes := lanes_ne_nil s hne
  refine ⟨fun e he => hg.exists_places_layout s he, ?_, ?_, ?_, ?_, ?_, ?_, ?_⟩
  · -- No lane comes before the first.
    have hfirst := List.getElem?_eq_getElem (List.length_pos_iff.mpr hlanes)
    refine ⟨_, by rw [groups_layout]; exact hfirst, ?_⟩
    rw [hside.x_eq 0 _ hfirst]
    simp [LayoutSettings.leftEdge]
  · rw [groups_layout]
    intro k lane next hlane hnext
    rw [hside.x_eq (k + 1) next hnext, s.leftEdge_take_succ hlane, ← hside.x_eq k lane hlane,
      add_assoc]
  · have hlast := List.getLast?_eq_some_getLast hlanes
    exact ⟨_, by rw [groups_layout]; exact hlast, width_layout hne hlast⟩
  · intro e he p lane hplaces
    obtain ⟨i, _, _, rfl, _, hwithin⟩ := hg.places_layout he hplaces
    exact hwithin.x_mem_Icc hs
  · intro e he p lane hplaces e' he' p' hplaces'
    obtain ⟨i, _, _, rfl, _, hwithin⟩ := hg.places_layout he hplaces
    obtain ⟨i', _, _, rfl, _, hwithin'⟩ := hg.places_layout he' hplaces'
    exact hwithin.x_eq_or_apart hs hwithin'
  · intro e he p lane hplaces e' he' p' lane' hplaces' hlt
    obtain ⟨i, _, _, rfl, _, hwithin⟩ := hg.places_layout he hplaces
    obtain ⟨i', _, _, rfl, _, hwithin'⟩ := hg.places_layout he' hplaces'
    exact hwithin.x_add_le hs hwithin' hlt
  · rw [groups_layout]
    intro lane hlane
    obtain ⟨k, hk⟩ := List.mem_iff_getElem?.mp hlane
    exact columnWidth_mem_Icc hs hk

/-- Two groups: the first has two functions, one of which calls the other and the function of
the second group. -/
def twoGroups : Graph :=
  ofInsertions
    [.make "f" "a/x.js" "a" .declaration 1 1 [], .make "g" "a/x.js" "a" .declaration 2 2 [],
      .make "h" "b/y.js" "b" .declaration 1 1 []]
    [⟨"a/x.js:f:1", "a/x.js:g:2", 1⟩, ⟨"a/x.js:f:1", "b/y.js:h:1", 1⟩]

/-- With a column for every function and one column to a band, both lanes are one column
wide. -/
theorem layout_lanesApart_twoGroups :
    let s := { LayoutSettings.standard (α := ℝ) with maxNodesPerColumn := 1, maxColumnsPerGroup := 1 }
    twoGroups.WellFormed ∧ twoGroups.isEmpty = false ∧ s.Accepted ∧
      ∃ lane next, (twoGroups.layout s).groups = [lane, next] ∧ lane.x = 40 ∧
        next.x = 40 + lane.width + 120 ∧ 180 ≤ next.columnWidth := by
  intro s
  have hg : twoGroups.WellFormed := wellFormed_ofInsertions _ _
  have hne : twoGroups.isEmpty = false := by decide +kernel
  have hs : s.Accepted := LayoutSettings.accepted_standard (by decide) (by decide)
  refine ⟨hg, hne, hs, ?_⟩
  have hlength : (twoGroups.layout s).groups.length = 2 := by
    have hnames := congrArg List.length (twoGroups.names_layout s)
    have hgroups : twoGroups.groups.length = 2 := by cbv
    rw [(twoGroups.names_lanes_perm).length_eq, List.length_map, hgroups] at hnames
    exact hnames
  obtain ⟨lane, next, hlanes⟩ := List.length_eq_two.mp hlength
  have happart := layout_lanesApart hg hne hs
  obtain ⟨first, hfirst, hx⟩ := happart.first_x
  have hnext := happart.next_x 0 lane next (by rw [hlanes]; rfl) (by rw [hlanes]; rfl)
  have hwidth := (happart.columnWidth_mem next (by rw [hlanes]; simp)).1
  obtain rfl : first = lane := by
    rw [hlanes] at hfirst
    exact (Option.some.inj hfirst).symm
  have hmargin : s.leftMargin = 40 := by norm_num [s, LayoutSettings.standard, Coordinate.ofNat]
  have hgap : s.groupGap = 120 := by norm_num [s, LayoutSettings.standard, Coordinate.ofNat]
  have hbase : s.baseColumnWidth = 180 := by
    norm_num [s, LayoutSettings.standard, Coordinate.ofNat]
  refine ⟨first, next, hlanes, hx.trans hmargin, ?_, hbase ▸ hwidth⟩
  rw [hnext, hx, hmargin, hgap]

end Graph
end CallAtlas
