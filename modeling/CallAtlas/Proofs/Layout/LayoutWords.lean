import Mathlib
import CallAtlas.Proofs.Layout.CanvasWords
import CallAtlas.Proofs.Layout.CrossingWords
import CallAtlas.Proofs.Layout.Recount
import CallAtlas.Proofs.Layout.StagingWords

/-!
# The layout in machine words

`Graph.layout?` is the layout with every step checked that a running program could
fail to take: sums, differences and counts have to be machine words, every place in
a table that is read or written has to exist, and nothing may be divided by zero.

**One step can fail, and one only** (`words_suffice`). The height of a band is
computed from one more than the capacity of a column, and where the capacity is the
largest machine word there is no such word. Everything else is in range on every
graph, whatever the settings are: stages, columns, bands and crossings are bounded
by the numbers of entities and links, not by the settings.

That step stops a run (`Graph.runLayout?`), although the settings pass all checks
(`words_run_out`).
-/

namespace CallAtlas

open Word

variable {α : Type} [Coordinate α]

/-! ### The layout with checked steps -/

/-- How often each number below a bound occurs in a list. -/
def tally? (bound : Nat) (ks : List Nat) : Option (List Nat) := do
  let table ← ks.foldlM (fun table k => do put? table k (← word? ((← table[k]?) + 1)))
    (Array.replicate bound 0)
  return table.toList

namespace Graph

/-- The links of a graph with the stages of their ends. -/
def stagedLinks? (g : Graph) (staging : Staging) : Option (List StagedLink) :=
  g.links.toList.mapM fun l => do
    return .make l.source l.target (← staging.stages[l.source]?) (← staging.stages[l.target]?)

/-- The places of all entities, written into a table one after the other. -/
def places? (g : Graph) (placed : List (Placed α)) : Option (Array (Placed α)) :=
  (placed.map fun p => (p.node, p)).foldlM (fun places e => put? places e.1 e.2)
    (Array.replicate g.entityCount nowhere)

/-- The positions of all entities, by id. -/
def positions? (g : Graph) (stage : Nat → Nat) (places : Array (Placed α)) (ys : Heights α) :
    Option (List (String × Position α)) :=
  (g.sortedById (List.range g.entityCount)).mapM fun i => do
    let p ← places[i]?
    return ((g.node i).id,
      { x := p.x, y := ← ys[i]?, groupIndex := p.groupIndex, stageIndex := stage i,
        columnIndex := p.columnIndex : Position α })

/-- The summed length of all links. -/
def totalLength? (g : Graph) (places : Array (Placed α)) (ys : Heights α) : Option α :=
  g.links.toList.foldlM (fun sum l => do
    let p ← places[l.source]?
    let q ← places[l.target]?
    return sum + Coordinate.length (p.x - q.x) ((← ys[l.source]?) - (← ys[l.target]?)))
    (Coordinate.ofNat 0)

/-- The outcome of the crossing reduction, unless there are too many links. -/
def outcome? (s : LayoutSettings α) (links : List StagedLink) (ys : Heights α)
    (slots : List Slot) : Option (Option (ReductionOutcome α)) :=
  if links.length ≤ s.crossingEdgeLimit then
    (reduceCrossings? links ys slots s.crossingMaxPasses).map some
  else some none

/-- The mean of lengths, given their sum and their number. -/
def meanLength? (total : α) (count : Nat) : Option α :=
  if count = 0 then some (Coordinate.ofNat 0) else ratio? total count

/-- What the layout says about itself, for bands of the height `extent`. The number
of gaps between bands is cut off at zero on purpose and needs no check. -/
def metrics? (g : Graph) (s : LayoutSettings α) (staging : Staging) (extent : α)
    (canvas : Canvas α) (outcome : Option (ReductionOutcome α)) (total : α) (linkCount : Nat) :
    Option (LayoutMetrics α) := do
  let stageCount ← staging.count?
  let columnCount ← sum? (canvas.lanes.map (·.columnCount))
  let nodesPerStage ← tally? stageCount ((List.range g.entityCount).map staging.stage)
  let meanEdgeLength ← meanLength? total linkCount
  let bands := canvas.lanes.foldl (fun m lane => max m lane.bandCount) 0
  return {
    groupCount := canvas.lanes.length
    stageCount
    columnCount
    nodesPerGroup := (canvas.lanes.map fun lane => (lane.name, lane.nodeCount)).mergeSort
      fun a b => (compare a.1 b.1).isLE
    nodesPerStage
    meanEdgeLength
    crossingCount := outcome.map (·.after)
    crossingsBeforeReduction := outcome.map (·.before)
    reversalsApplied := (outcome.map (·.reversals)).getD 0
    reductionPasses := (outcome.map (·.passes)).getD 0
    cycleEdges := staging.cycleEdges
    width := canvas.cursor - s.groupGap + s.leftMargin
    height := Coordinate.ofNat 2 * s.topMargin + Coordinate.ofNat bands * extent +
      Coordinate.ofNat (bands - 1) * s.bandGap }

/-- The layout of a graph, with every step checked. -/
def layout? (g : Graph) (s : LayoutSettings α) : Option (Layout α) :=
  if g.isEmpty then some .empty
  else do
    let staging ← g.staging?
    let extent ← s.bandExtent?
    let canvas ← g.canvas? s extent staging.stage
    let places ← g.places? canvas.placed
    let links ← g.stagedLinks? staging
    let firstHeights : Heights α := places.map (·.y)
    let outcome ← outcome? s links firstHeights canvas.slots
    let ys := (outcome.map (·.heights)).getD firstHeights
    let positions ← g.positions? staging.stage places ys
    let total ← g.totalLength? places ys
    let metrics ← g.metrics? s staging extent canvas outcome total links.length
    return { positions, groups := canvas.lanes, metrics }

end Graph

/-! ### Counting by stage -/

/-- The table of a function on the numbers below a bound. -/
def tableOf (bound : Nat) (f : Nat → Nat) : Array Nat := ((List.range bound).map f).toArray

theorem getElem?_tableOf {bound : Nat} {f : Nat → Nat} (k : Nat) :
    (tableOf bound f)[k]? = if k < bound then some (f k) else none := by
  unfold tableOf
  rw [List.getElem?_toArray, List.getElem?_map]
  split
  · rename_i hk
    rw [List.getElem?_range hk, Option.map_some]
  · rename_i hk
    rw [List.getElem?_eq_none (by rw [List.length_range]; omega), Option.map_none]

theorem put?_tableOf {bound k : Nat} (hk : k < bound) (f : Nat → Nat) (v : Nat) :
    put? (tableOf bound f) k v = some (tableOf bound (Function.update f k v)) := by
  have hsize : k < (tableOf bound f).size := by
    unfold tableOf
    simpa using hk
  rw [put?_of_lt hsize]
  congr 1
  refine Array.ext_getElem? fun j => ?_
  rw [Array.getElem?_setIfInBounds, getElem?_tableOf, getElem?_tableOf, if_pos hsize]
  by_cases hjk : k = j
  · subst hjk
    rw [if_pos rfl, if_pos hk, Function.update_self]
  · rw [if_neg hjk, Function.update_of_ne (Ne.symm hjk)]

/-- Counting on in a table. -/
theorem foldlM_tally {bound : Nat} {ks : List Nat} (hks : ∀ k ∈ ks, k < bound) :
    ∀ {f : Nat → Nat}, (∀ k, f k + ks.count k < 2 ^ 64) →
      ks.foldlM (fun table k => do put? table k (← word? ((← table[k]?) + 1))) (tableOf bound f) =
        some (tableOf bound fun k => f k + ks.count k) := by
  induction ks with
  | nil => exact fun _ => rfl
  | cons k ks ih =>
      intro f hword
      have hk : k < bound := hks k List.mem_cons_self
      have hcount : ∀ j, f j + (k :: ks).count j =
          Function.update f k (f k + 1) j + ks.count j := by
        intro j
        rw [List.count_cons]
        by_cases hjk : k = j
        · subst hjk
          rw [Function.update_self, beq_self_eq_true, if_pos rfl]
          omega
        · rw [Function.update_of_ne (Ne.symm hjk), if_neg (by simpa using hjk), Nat.add_zero]
      simp only [hcount] at hword ⊢
      have hnext := hword k
      rw [Function.update_self] at hnext
      rw [List.foldlM_cons, getElem?_tableOf, if_pos hk]
      dsimp only [Option.bind_eq_bind, Option.bind_some]
      rw [word?_of_lt (by omega), Option.bind_some, put?_tableOf hk]
      exact ih (fun j hj => hks j (List.mem_cons_of_mem k hj)) hword

theorem tally?_eq {bound : Nat} {ks : List Nat} (hks : ∀ k ∈ ks, k < bound)
    (hlength : ks.length < 2 ^ 64) : tally? bound ks = some ((List.range bound).map ks.count) := by
  have hstart : Array.replicate bound 0 = tableOf bound fun _ => 0 := by
    unfold tableOf
    rw [List.map_const', List.length_range, List.toArray_replicate]
  have hword : ∀ k, 0 + ks.count k < 2 ^ 64 := by
    intro k
    have hle := List.count_le_length (a := k) (l := ks)
    omega
  unfold tally?
  rw [hstart, foldlM_tally hks hword]
  simp only [Nat.zero_add]
  rfl

namespace Graph

/-! ### No check but one fails -/

variable {g : Graph}

theorem places?_eq (g : Graph) (s : LayoutSettings α) :
    g.places? (g.stagedCanvas s).placed = some (g.places s) := by
  unfold places? places
  rw [tabulate_eq]
  refine foldlM_put? fun e he => ?_
  obtain ⟨p, hp, rfl⟩ := List.mem_map.mp he
  rw [Array.size_replicate]
  exact node_lt_of_mem_placed hp

theorem getElem?_places (s : LayoutSettings α) {i : Nat} (hi : i < g.entityCount) :
    (g.places s)[i]? = some (g.placeAt s i) := by
  refine getElem?_eq_some_getD ?_ _
  rwa [← size_firstHeights g s, firstHeights, Array.size_map] at hi

theorem WellFormed.stagedLinks?_eq (hg : g.WellFormed) :
    g.stagedLinks? g.staging = some (g.stagedLinks g.staging.stage) := by
  have hstage : ∀ i < g.entityCount, g.staging.stages[i]? = some (g.staging.stage i) :=
    fun i hi => getElem?_eq_some_getD (by rwa [hg.size_stages]) 0
  refine mapM_eq_map fun l hl => ?_
  obtain ⟨hsource, htarget⟩ := hg.ends_lt hl
  rw [hstage _ hsource, hstage _ htarget]
  rfl

theorem WellFormed.countable (hg : g.WellFormed) (hn : g.Numbered) (s : LayoutSettings α) :
    Reduction.Countable (g.stagedLinks g.staging.stage) (g.firstHeights s).size where
  within := fun a ha => by
    rw [size_firstHeights]
    exact hg.ends_lt_of_mem_stagedLinks ha
  length_lt := by
    rw [length_stagedLinks]
    exact hn.edgeCount_lt

theorem WellFormed.outcome?_eq (hg : g.WellFormed) (hn : g.Numbered) (hsymm : SymmetricSign α)
    (s : LayoutSettings α) :
    outcome? s (g.stagedLinks g.staging.stage) (g.firstHeights s) (g.stagedCanvas s).slots =
      some (g.reduction? s) := by
  unfold outcome? reduction?
  split
  · rw [reduceCrossings?_eq hsymm (hg.countable hn s) (g.stagedCanvas_slots_proper s)]
    rfl
  · rfl

theorem size_finalHeights (hsymm : SymmetricSign α) (g : Graph) (s : LayoutSettings α) :
    (g.finalHeights s).size = g.entityCount := by
  unfold finalHeights reduction?
  split
  · have hexact := reduceCrossings_exact hsymm (g.stagedLinks g.staging.stage) (g.firstHeights s)
      (g.stagedCanvas_slots_proper s) s.crossingMaxPasses
    rw [Option.map_some, Option.getD_some, hexact.size, size_firstHeights]
  · exact g.size_firstHeights s

theorem positions?_eq (hsymm : SymmetricSign α) (g : Graph) (s : LayoutSettings α) :
    g.positions? g.staging.stage (g.places s) (g.finalHeights s) =
      some ((g.sortedById (List.range g.entityCount)).map fun i =>
        ((g.node i).id, g.positionAt s i)) := by
  refine mapM_eq_map fun i hi => ?_
  have hlt : i < g.entityCount := List.mem_range.mp (mem_sortedById.mp hi)
  rw [getElem?_places s hlt, getElem?_heights (by rwa [size_finalHeights hsymm])]
  rfl

theorem WellFormed.totalLength?_eq (hg : g.WellFormed) (hsymm : SymmetricSign α)
    (s : LayoutSettings α) :
    g.totalLength? (g.places s) (g.finalHeights s) = some (g.totalLength s) := by
  have hheight : ∀ i < g.entityCount,
      (g.finalHeights s)[i]? = some (heightOf (g.finalHeights s) i) :=
    fun i hi => getElem?_heights (by rwa [size_finalHeights hsymm])
  unfold totalLength? totalLength
  rw [← Array.foldl_toList]
  refine foldlM_eq_foldl (fun _ => True) trivial ?_
  intro sum _ l hl
  obtain ⟨hsource, htarget⟩ := hg.ends_lt hl
  rw [getElem?_places s hsource, getElem?_places s htarget, hheight _ hsource, hheight _ htarget]
  exact ⟨rfl, trivial⟩

/-- No lane has more columns than entities, so all lanes together have no more
columns than there are entities. -/
theorem WellFormed.sum_columnCount_le (hg : g.WellFormed) (s : LayoutSettings α) :
    ((g.stagedCanvas s).lanes.map (·.columnCount)).sum ≤ g.entityCount := by
  have hlane : ∀ geometry ∈ (g.stagedCanvas s).lanes,
      geometry.columnCount ≤ geometry.nodeCount := by
    intro geometry hgeometry
    have hflat : geometry.flat ∈ (g.stagedCanvas s).lanes.map LaneGeometry.flat :=
      List.mem_map_of_mem hgeometry
    rw [map_flat_lanes] at hflat
    obtain ⟨x, _, heq⟩ := List.mem_map.mp hflat
    change geometry.flat.columnCount ≤ geometry.flat.nodeCount
    rw [← heq, flatLane, ← (g.ranked_perm x.1.members).length_eq]
    exact length_chunks_le _ _
  have hnodes := hg.sum_nodeCount s
  rw [groups_layout, positions_layout, List.length_map, (g.sortedById_perm _).length_eq,
    List.length_range] at hnodes
  exact (List.sum_le_sum hlane).trans_eq hnodes

theorem WellFormed.tally?_stages (hg : g.WellFormed) (hn : g.Numbered) :
    tally? g.staging.count ((List.range g.entityCount).map g.staging.stage) =
      some ((List.range g.staging.count).map fun k =>
        (List.range g.entityCount).countP (g.staging.stage · == k)) := by
  have hlt := hn.entityCount_lt
  rw [tally?_eq]
  · congr 2
    funext k
    exact List.countP_map
  · intro k hk
    obtain ⟨i, hi, rfl⟩ := List.mem_map.mp hk
    exact Staging.stage_lt_count (by rwa [hg.size_stages, ← List.mem_range])
  · rw [List.length_map, List.length_range]
    omega

theorem meanLength?_eq (g : Graph) (s : LayoutSettings α) :
    meanLength? (g.totalLength s) (g.stagedLinks g.staging.stage).length =
      some (g.metricsOf s).meanEdgeLength := by
  unfold meanLength? metricsOf
  dsimp only
  simp only [List.isEmpty_iff_length_eq_zero]
  split
  · rfl
  · rename_i hsome
    exact ratio?_of_pos (Nat.pos_of_ne_zero hsome) _

theorem WellFormed.metrics?_eq (hg : g.WellFormed) (hn : g.Numbered) (s : LayoutSettings α) :
    g.metrics? s g.staging s.bandExtent (g.stagedCanvas s) (g.reduction? s) (g.totalLength s)
      (g.stagedLinks g.staging.stage).length = some (g.metricsOf s) := by
  have hcolumns := hg.sum_columnCount_le s
  have hlt := hn.entityCount_lt
  unfold metrics?
  rw [hg.count?_staging hlt, sum?_of_lt (by omega), meanLength?_eq]
  dsimp only [Option.bind_eq_bind, Option.bind_some]
  rw [hg.tally?_stages hn]
  rfl

/-- Where there is a word for one more than the capacity of a column, every step of
the layout can be taken. -/
theorem WellFormed.layout?_eq (hg : g.WellFormed) (hn : g.Numbered) (hsymm : SymmetricSign α)
    (hempty : g.isEmpty = false) {s : LayoutSettings α}
    (hcapacity : s.maxNodesPerColumn + 1 < 2 ^ 64) : g.layout? s = some (g.layout s) := by
  have hcanvas : g.canvas? s s.bandExtent g.staging.stage = some (g.stagedCanvas s) :=
    hg.canvas?_eq hn s g.staging.stage
  have hfirst : (g.places s).map (·.y) = g.firstHeights s := rfl
  have hfinal : ((g.reduction? s).map (·.heights)).getD (g.firstHeights s) = g.finalHeights s := rfl
  unfold layout?
  rw [if_neg (by rw [hempty]; exact Bool.false_ne_true), hg.staging?_eq hn.entityCount_lt,
    s.bandExtent?_eq hcapacity]
  simp only [Option.bind_eq_bind, Option.bind_some, hcanvas, places?_eq, hg.stagedLinks?_eq,
    hfirst, hg.outcome?_eq hn hsymm, hfinal, positions?_eq hsymm, hg.totalLength?_eq hsymm,
    hg.metrics?_eq hn, layout_of_nonempty hempty]
  rfl

/-- Where there is none, the layout gets stuck. -/
theorem WellFormed.layout?_eq_none (hg : g.WellFormed) (hn : g.Numbered)
    (hempty : g.isEmpty = false) {s : LayoutSettings α} (hcapacity : 2 ^ 64 ≤ s.maxNodesPerColumn + 1) :
    g.layout? s = none := by
  unfold layout?
  rw [if_neg (by rw [hempty]; exact Bool.false_ne_true), hg.staging?_eq hn.entityCount_lt,
    s.bandExtent?_eq_none hcapacity]
  rfl

/-- A run comes to the layout if there is nothing to lay out, or a machine word for one
more than the capacity of a column; otherwise it stops. -/
theorem runLayout?_eq (g : Graph) (s : LayoutSettings α) :
    g.runLayout? s =
      if g.isEmpty = true ∨ s.maxNodesPerColumn + 1 < 2 ^ 64 then some (g.layout s) else none := by
  unfold runLayout?
  by_cases hempty : g.isEmpty = true
  · rw [if_pos hempty, if_pos (Or.inl hempty), layout_of_isEmpty hempty]
    rfl
  · rw [if_neg hempty]
    by_cases hcapacity : s.maxNodesPerColumn + 1 < 2 ^ 64
    · rw [s.bandExtent?_eq hcapacity, if_pos (Or.inr hcapacity)]
      rfl
    · rw [s.bandExtent?_eq_none (Nat.le_of_not_lt hcapacity),
        if_neg (not_or.mpr ⟨hempty, hcapacity⟩)]
      rfl

/-- **Machine words suffice for a layout**, no table is too short, and nothing is
divided by zero: the layout whose every step is checked is the one that a run comes to,
for every graph and whatever the settings are. A run stops in one case only, at a
capacity of columns that is the largest machine word. -/
theorem words_suffice (hsymm : SymmetricSign α) (hg : g.WellFormed) (hn : g.Numbered)
    (s : LayoutSettings α) :
    g.layout? s = g.runLayout? s ∧
      g.runLayout? s =
        if g.isEmpty = true ∨ s.maxNodesPerColumn + 1 < 2 ^ 64 then some (g.layout s)
        else none := by
  refine ⟨?_, g.runLayout?_eq s⟩
  rw [runLayout?_eq]
  by_cases hempty : g.isEmpty = true
  · rw [if_pos (Or.inl hempty), layout_of_isEmpty hempty, layout?, if_pos hempty]
  · have hsome : g.isEmpty = false := Bool.eq_false_iff.mpr hempty
    by_cases hcapacity : s.maxNodesPerColumn + 1 < 2 ^ 64
    · rw [if_pos (Or.inr hcapacity)]
      exact hg.layout?_eq hn hsymm hsome hcapacity
    · rw [if_neg (not_or.mpr ⟨hempty, hcapacity⟩)]
      exact hg.layout?_eq_none hn hsome (Nat.le_of_not_lt hcapacity)

theorem numbered_ring : ring.Numbered where
  entityCount_lt := by
    have hcount : ring.entityCount = 4 := by decide +kernel
    omega
  edgeCount_lt := by
    have hcount : ring.edgeCount = 6 := by decide +kernel
    omega

/-- The ring in the standard settings. -/
theorem words_suffice_ring :
    SymmetricSign ℝ ∧ ring.WellFormed ∧ ring.Numbered ∧
      ring.layout? (.standard (α := ℝ)) = some (ring.layout .standard) := by
  have hg : ring.WellFormed := wellFormed_ofInsertions _ _
  refine ⟨symmetricSign_real, hg, numbered_ring, ?_⟩
  obtain ⟨hchecked, hrun⟩ :=
    words_suffice symmetricSign_real hg numbered_ring (.standard (α := ℝ))
  rwa [← hchecked, if_pos (Or.inr (by change 16 < 2 ^ 64; norm_num))] at hrun

/-- Settings with the largest machine word for a capacity pass the checks. A band in
them should be `28 * 2 ^ 64` high, but a run has no word for the number of rows that it
needs room for, and stops. -/
theorem words_run_out :
    let s := { LayoutSettings.standard (α := ℝ) with
      maxNodesPerColumn := 2 ^ 64 - 1, bandHeight := 10 }
    s.Accepted ∧ s.maxNodesPerColumn < 2 ^ 64 ∧ ring.WellFormed ∧ ring.Numbered ∧
      s.bandExtent = 28 * 2 ^ 64 ∧ ring.layout? s = none ∧ ring.runLayout? s = none := by
  intro s
  have hg : ring.WellFormed := wellFormed_ofInsertions _ _
  have hcapacity : s.maxNodesPerColumn = 2 ^ 64 - 1 := rfl
  have hnone : ring.layout? s = none :=
    hg.layout?_eq_none numbered_ring (by decide +kernel) (by omega)
  refine ⟨LayoutSettings.accepted_iff.mpr ⟨?_, ?_, ?_, ?_⟩, by omega, hg, numbered_ring, ?_,
    hnone, ?_⟩
  · omega
  · decide
  · simp [s, LayoutSettings.sizes, LayoutSettings.standard, Coordinate.ofNat]
  · norm_num [s, LayoutSettings.standard, Coordinate.ofNat]
  · rw [LayoutSettings.bandExtent, hcapacity]
    norm_num [s, LayoutSettings.standard, Coordinate.ofNat, Coordinate.larger]
  · have hfull : ¬ s.maxNodesPerColumn + 1 < 2 ^ 64 := by omega
    have hsome : ¬ ring.isEmpty = true := by decide +kernel
    rw [runLayout?_eq, if_neg (not_or.mpr ⟨hsome, hfull⟩)]

end Graph

end CallAtlas
