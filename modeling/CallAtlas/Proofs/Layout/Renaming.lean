import Mathlib
import CallAtlas.Proofs.Graph.Renaming
import CallAtlas.Proofs.Layout.Placement
import CallAtlas.Proofs.Layout.Staging

/-!
# Laying out a graph at other positions

A layout is worked out over positions, but every choice on the way is made by ids,
names, groups, degrees and stages. So each part of the layout of a graph with its
positions renamed is the same part, renamed: the walk that finds the stages goes the
same way, lanes have the same members, columns are cut at the same places, and every
entity is placed where it was.

Lists of positions are followed by equations, `f' (is.map π) = (f is).map π`, tables
by `Renaming.Relabels`.
-/

namespace CallAtlas

variable {α : Type} [Coordinate α]

/-! ### Stages -/

namespace Staging

/-- A state of the walk over renamed positions. -/
structure RenamedBy {n : Nat} (π : Renaming n) (s s' : Staging) : Prop where
  marks : π.Relabels s.marks s'.marks
  stages : π.Relabels s.stages s'.stages
  cycleEdges_eq : s'.cycleEdges = s.cycleEdges

variable {n : Nat} {π : Renaming n} {s s' : Staging}

theorem renamedBy_start (π : Renaming n) : RenamedBy π (start n) (start n) :=
  ⟨Renaming.relabels_replicate _, Renaming.relabels_replicate _, rfl⟩

namespace RenamedBy

theorem mark_eq (h : RenamedBy π s s') (i : Nat) : s'.mark (π i) = s.mark i := by
  unfold mark
  rw [h.marks i]

theorem stage_eq (h : RenamedBy π s s') (i : Nat) : s'.stage (π i) = s.stage i := by
  unfold stage
  rw [h.stages i]

theorem enter (h : RenamedBy π s s') (i : Nat) : RenamedBy π (s.enter i) (s'.enter (π i)) :=
  ⟨h.marks.setIfInBounds i .underWay, h.stages, h.cycleEdges_eq⟩

theorem leave (h : RenamedBy π s s') (i k : Nat) :
    RenamedBy π (s.leave i k) (s'.leave (π i) k) :=
  ⟨h.marks.setIfInBounds i .done, h.stages.setIfInBounds i k, h.cycleEdges_eq⟩

/-- Looking at a callee leads to renamed states if visiting it does. -/
theorem lookAt {visit visit' : Nat → Staging → Staging}
    (hvisit : ∀ {d s s'}, RenamedBy π s s' → RenamedBy π (visit d s) (visit' (π d) s'))
    {acc acc' : Staging × Nat} (h : RenamedBy π acc.1 acc'.1 ∧ acc'.2 = acc.2) (d : Nat) :
    RenamedBy π (Staging.lookAt visit acc d).1 (Staging.lookAt visit' acc' (π d)).1 ∧
      (Staging.lookAt visit' acc' (π d)).2 = (Staging.lookAt visit acc d).2 := by
  obtain ⟨hstate, hhighest⟩ := h
  unfold Staging.lookAt
  rw [hstate.mark_eq, hhighest, hstate.stage_eq, (hvisit hstate).stage_eq]
  cases acc.1.mark d with
  | done => exact ⟨hstate, rfl⟩
  | underWay =>
      refine ⟨⟨hstate.marks, hstate.stages, ?_⟩, rfl⟩
      dsimp only
      rw [hstate.cycleEdges_eq]
  | untouched => exact ⟨hvisit hstate, rfl⟩

/-- **A visit goes the same way over renamed positions**, as long as the callees come
in the same order. By induction on the depth. -/
theorem visit {callees callees' : Nat → List Nat}
    (hcallees : ∀ i, callees' (π i) = (callees i).map π) (fuel : Nat) :
    ∀ {i : Nat} {s s' : Staging}, RenamedBy π s s' →
      RenamedBy π (Staging.visit callees fuel i s) (Staging.visit callees' fuel (π i) s') := by
  induction fuel with
  | zero => exact fun h => h
  | succ fuel ih =>
      intro i s s' h
      rw [visit_succ, visit_succ, hcallees, List.foldl_map, List.isEmpty_map]
      dsimp only
      -- Between two callees the states are renamed and the highest stage is the same.
      have hfold := List.foldl_rel (l := callees i)
        (r := fun acc acc' => RenamedBy π acc.1 acc'.1 ∧ acc'.2 = acc.2)
        (f := Staging.lookAt (Staging.visit callees fuel))
        (g := fun acc d => Staging.lookAt (Staging.visit callees' fuel) acc (π d))
        (a := (s.enter i, 0)) (b := (s'.enter (π i), 0)) ⟨h.enter i, rfl⟩
        fun d _ acc acc' hacc => lookAt ih hacc d
      rw [hfold.2]
      exact hfold.1.leave i _

theorem visitRoot {callees callees' : Nat → List Nat}
    (hcallees : ∀ i, callees' (π i) = (callees i).map π) (h : RenamedBy π s s') (m i : Nat) :
    RenamedBy π (Staging.visitRoot callees m s i) (Staging.visitRoot callees' m s' (π i)) := by
  unfold Staging.visitRoot
  rw [h.mark_eq]
  split
  · exact visit hcallees (m + 1) h
  · exact h

end RenamedBy

end Staging

namespace Graph.RenamedBy

variable {g g' : Graph} {π : Renaming g.entityCount} (h : g.RenamedBy g' π)

include h

theorem calleesById_eq (i : Nat) : g'.calleesById (π i) = (g.calleesById i).map π :=
  h.sortedById_eq (h.neighbours_perm .downstream i) fun _ hj =>
    (h.wellFormed.step_lt (mem_neighbours.mp hj)).2

/-- **The walk over a renamed graph goes the same way.** -/
theorem staging : Staging.RenamedBy π g.staging g'.staging := by
  have hwalk : ∀ g : Graph, g.staging = (g.sortedById (List.range g.entityCount)).foldl
      (Staging.visitRoot g.calleesById g.entityCount) (Staging.start g.entityCount) :=
    fun _ => rfl
  rw [hwalk g, hwalk g', h.sortedById_range, List.foldl_map, h.count_eq]
  exact List.foldl_rel (r := Staging.RenamedBy π) (Staging.renamedBy_start π)
    fun i _ s s' hs => hs.visitRoot h.calleesById_eq g.entityCount i

theorem stage_eq (i : Nat) : g'.staging.stage (π i) = g.staging.stage i := h.staging.stage_eq i

theorem stageCount_eq : g'.staging.count = g.staging.count := by
  have hperm := h.staging.stages.toList_perm h.wellFormed.size_stages
    (h.wellFormed'.size_stages.trans h.count_eq)
  unfold Staging.count
  rw [← Array.foldl_toList, ← Array.foldl_toList]
  have : RightCommutative fun m stage : Nat => max m (stage + 1) := ⟨fun m a b => by omega⟩
  exact hperm.foldl_eq 0

/-- As many entities have a stage. -/
theorem countP_stage_eq (k : Nat) :
    (List.range g'.entityCount).countP (g'.staging.stage · == k) =
      (List.range g.entityCount).countP (g.staging.stage · == k) := by
  rw [h.range_perm.countP_eq, List.countP_map]
  exact List.countP_congr fun i _ => by rw [Function.comp_apply, h.stage_eq]

end Graph.RenamedBy

/-! ### Lanes and columns -/

/-- A lane with its members at other positions. -/
def Lane.rename (f : Nat → Nat) (lane : Lane α) : Lane α :=
  { lane with members := lane.members.map f }

theorem chunks_map {β γ : Type} (f : β → γ) (size : Nat) (xs : List β) :
    chunks size (xs.map f) = (chunks size xs).map (List.map f) := by
  have hpieces : ∀ (fuel : Nat) (xs : List β),
      chunksUpTo (max 1 size) fuel (xs.map f) =
        (chunksUpTo (max 1 size) fuel xs).map (List.map f) := by
    intro fuel
    induction fuel with
    | zero => exact fun _ => rfl
    | succ fuel ih =>
        intro xs
        cases xs with
        | nil => rfl
        | cons x xs =>
            rw [List.map_cons, chunksUpTo_cons, chunksUpTo_cons, List.map_cons, ← ih,
              List.map_take, List.map_drop, List.map_cons]
  unfold chunks
  rw [List.length_map, hpieces]

namespace Graph.RenamedBy

variable {g g' : Graph} {π : Renaming g.entityCount} (h : g.RenamedBy g' π)

include h

theorem laneOf_eq (group : String) :
    g'.laneOf (α := α) group = (g.laneOf group).rename π := by
  have hmembers : g'.sortedById
        ((List.range g'.entityCount).filter fun i => (g'.node i).group == group) =
      (g.sortedById
        ((List.range g.entityCount).filter fun i => (g.node i).group == group)).map π := by
    refine h.sortedById_eq ?_ fun i hi => List.mem_range.mp (List.mem_filter.mp hi).1
    refine (h.range_perm.filter _).trans (List.Perm.of_eq ?_)
    rw [List.filter_map]
    congr 1
    exact List.filter_congr fun i _ => by rw [Function.comp_apply, h.group_eq]
  have hdegree : (fun i => (g'.node i).outDegree) ∘ π = fun i => (g.node i).outDegree :=
    funext (h.degree_eq .downstream)
  unfold laneOf Lane.rename
  dsimp only
  rw [hmembers, List.map_map, hdegree, List.length_map]

theorem lanes_eq : g'.lanes (α := α) = g.lanes.map (Lane.rename π) := by
  have hlanes : g'.groups.map (g'.laneOf (α := α)) =
      (g.groups.map g.laneOf).map (Lane.rename π) := by
    rw [h.groups_eq, List.map_map]
    exact List.map_congr_left fun group _ => h.laneOf_eq group
  unfold lanes
  rw [hlanes]
  -- Lanes are compared without looking at their members.
  exact (List.map_mergeSort (f := Lane.rename π) fun _ _ _ _ => rfl).symm

theorem columns_eq (members : List Nat) (capacity : Nat) :
    g'.columns (members.map π) capacity = (g.columns members capacity).map (List.map π) := by
  have hrank : ∀ i j, g'.rankOrder (π i) (π j) = g.rankOrder i j := by
    intro i j
    have hout := h.degree_eq .downstream
    have hin := h.degree_eq .upstream
    unfold Entity.degree at hout hin
    unfold rankOrder
    dsimp only at hout hin ⊢
    rw [hout, hout, hin, hin, h.name_eq, h.name_eq, h.id_eq, h.id_eq]
  have hranked : g'.ranked (members.map π) = (g.ranked members).map π := by
    unfold ranked
    refine (List.map_mergeSort fun i _ j _ => ?_).symm
    rw [hrank]
  unfold columns
  rw [hranked, chunks_map]

end Graph.RenamedBy

/-! ### Places and slots -/

/-- A place for the entity at another position. -/
def Placed.rename (f : Nat → Nat) (p : Placed α) : Placed α := { p with node := f p.node }

/-- A slot whose entities are at other positions. -/
def Slot.rename (f : Nat → Nat) (slot : Slot) : Slot := slot.map (List.map f)

theorem rowsOf_map {f : Nat → Nat} {stage stage' : Nat → Nat}
    (hstage : ∀ i, stage' (f i) = stage i) (column : List Nat) :
    rowsOf stage' (column.map f) = (rowsOf stage column).map f := by
  unfold rowsOf
  refine (List.map_mergeSort fun i _ j _ => ?_).symm
  rw [hstage, hstage]

theorem placeColumn_map {f : Nat → Nat} {stage stage' : Nat → Nat}
    (hstage : ∀ i, stage' (f i) = stage i) (s : LayoutSettings α) (groupIndex : Nat)
    (left width : α) (column : List Nat × Nat) :
    placeColumn s stage' groupIndex left width (column.1.map f, column.2) =
      (placeColumn s stage groupIndex left width column).map (Placed.rename f) := by
  unfold placeColumn
  dsimp only
  rw [rowsOf_map hstage, List.length_map, List.zipIdx_map, List.map_map, List.map_map]
  refine List.map_congr_left fun p _ => ?_
  simp only [Function.comp_apply, Prod.map, Placed.rename, hstage, id_eq]

/-- The slots of a lane, with their entities at other positions. -/
def SlotTable.rename (f : Nat → Nat) (t : SlotTable) : SlotTable :=
  t.map fun entry => (entry.1, Slot.rename f entry.2)

theorem SlotTable.push_rename (f : Nat → Nat) (t : SlotTable) (stage : Nat) (run : List Nat) :
    SlotTable.push stage (run.map f) (t.rename f) = (t.push stage run).rename f := by
  induction t with
  | nil => rfl
  | cons entry rest ih =>
      obtain ⟨m, slot⟩ := entry
      rw [rename] at ih
      simp only [rename, List.map_cons, push, ih]
      split
      · rfl
      split
      · rfl
      · simp [Slot.rename]

/-- How far a column has been cut, with its entities at other positions. -/
def Cutting.rename (f : Nat → Nat) (c : Cutting) : Cutting where
  slots := c.slots.rename f
  pending := c.pending.map fun run => (run.1, run.2.map f)

omit [Coordinate α] in
theorem Cutting.step_rename (f : Nat → Nat) (c : Cutting) (p : Placed α) :
    (c.rename f).step (p.rename f) = (c.step p).rename f := by
  obtain ⟨slots, _ | ⟨stage, run⟩⟩ := c
  · rfl
  · have hstage : (p.rename f).stage = p.stage := rfl
    simp only [step, rename, Option.map_some, hstage, SlotTable.push_rename]
    split
    · simp [Placed.rename]
    · rfl

theorem Cutting.flush_rename (f : Nat → Nat) (c : Cutting) :
    (c.rename f).flush = c.flush.rename f := by
  obtain ⟨slots, _ | ⟨stage, run⟩⟩ := c
  · rfl
  · exact slots.push_rename f stage run

omit [Coordinate α] in
theorem cutColumn_rename (f : Nat → Nat) (t : SlotTable) (column : List (Placed α)) :
    cutColumn (t.rename f) (column.map (Placed.rename f)) = (cutColumn t column).rename f := by
  have hstart : Cutting.mk (t.rename f) none = (Cutting.mk t none).rename f := rfl
  unfold cutColumn
  rw [List.foldl_map, ← Cutting.flush_rename, hstart,
    List.foldl_hom (Cutting.rename f) fun c p => Cutting.step_rename f c p]

omit [Coordinate α] in
theorem slotsOf_map (f : Nat → Nat) (columns : List (List (Placed α))) :
    slotsOf (columns.map (List.map (Placed.rename f))) = (slotsOf columns).map (Slot.rename f) := by
  have hstart : ([] : SlotTable) = SlotTable.rename f [] := rfl
  unfold slotsOf
  rw [List.foldl_map, hstart,
    List.foldl_hom (SlotTable.rename f) fun t column => cutColumn_rename f t column, ← hstart,
    SlotTable.rename, List.map_map, List.map_map]
  rfl

/-- What has been laid out, with its entities at other positions. -/
def Canvas.rename (f : Nat → Nat) (c : Canvas α) : Canvas α :=
  { c with placed := c.placed.map (Placed.rename f), slots := c.slots.map (Slot.rename f) }

theorem placeColumns_map {f : Nat → Nat} {stage stage' : Nat → Nat}
    (hstage : ∀ i, stage' (f i) = stage i) (s : LayoutSettings α) (groupIndex : Nat)
    (left width : α) (columns : List (List Nat)) :
    (columns.map (List.map f)).zipIdx.map (placeColumn s stage' groupIndex left width) =
      (columns.zipIdx.map (placeColumn s stage groupIndex left width)).map
        (List.map (Placed.rename f)) := by
  rw [List.zipIdx_map, List.map_map, List.map_map]
  exact List.map_congr_left fun column _ => placeColumn_map hstage s groupIndex left width column

namespace Graph.RenamedBy

variable {g g' : Graph} {π : Renaming g.entityCount} (h : g.RenamedBy g' π)

include h

theorem addLane_eq {stage stage' : Nat → Nat} (hstage : ∀ i, stage' (π i) = stage i)
    (s : LayoutSettings α) (c : Canvas α) (lane : Lane α) :
    (c.rename π).addLane g' s stage' (lane.rename π) = (c.addLane g s stage lane).rename π := by
  unfold Canvas.addLane Canvas.rename Lane.rename
  dsimp only
  rw [h.columns_eq, placeColumns_map hstage, slotsOf_map, List.length_map, List.length_map,
    ← List.map_flatten, List.map_append, List.map_append]

theorem canvas_eq {stage stage' : Nat → Nat} (hstage : ∀ i, stage' (π i) = stage i)
    (s : LayoutSettings α) : g'.canvas s stage' = (g.canvas s stage).rename π := by
  unfold canvas
  rw [h.lanes_eq, List.foldl_map]
  refine List.foldl_rel (r := fun c c' : Canvas α => c' = c.rename π) rfl ?_
  rintro lane _ c _ rfl
  exact h.addLane_eq hstage s c lane

theorem stagedCanvas_eq (s : LayoutSettings α) :
    g'.stagedCanvas s = (g.stagedCanvas s).rename π :=
  h.canvas_eq h.stage_eq s

end Graph.RenamedBy

/-! ### The table of places -/

theorem map_writeAll {β γ : Type} (f : β → γ) (a : Array β) (entries : List (Nat × β)) :
    (writeAll a entries).map f = writeAll (a.map f) (entries.map fun e => (e.1, f e.2)) := by
  induction entries generalizing a with
  | nil => rfl
  | cons e entries ih =>
      rw [writeAll_cons, ih, List.map_cons, writeAll_cons, Array.map_setIfInBounds]

theorem Renaming.Relabels.writeAll {n : Nat} {π : Renaming n} {β : Type} {a a' : Array β}
    (h : π.Relabels a a') (entries : List (Nat × β)) :
    π.Relabels (CallAtlas.writeAll a entries)
      (CallAtlas.writeAll a' (entries.map fun e => (π e.1, e.2))) := by
  induction entries generalizing a a' with
  | nil => exact h
  | cons e entries ih => exact ih (h.setIfInBounds e.1 e.2)

/-- A place without the position of its entity. -/
def Placed.anonymous (p : Placed α) : Placed α := { p with node := 0 }

namespace Graph

theorem map_anonymous_places (g : Graph) (s : LayoutSettings α) :
    (g.places s).map Placed.anonymous = writeAll (Array.replicate g.entityCount nowhere)
      ((g.stagedCanvas s).placed.map fun p => (p.node, p.anonymous)) := by
  unfold places
  rw [tabulate_eq, map_writeAll, Array.map_replicate, List.map_map]
  rfl

namespace RenamedBy

variable {g g' : Graph} {π : Renaming g.entityCount} (h : g.RenamedBy g' π)

include h

/-- **Every entity is placed where it was.** -/
theorem places (s : LayoutSettings α) :
    π.Relabels ((g.places s).map Placed.anonymous) ((g'.places s).map Placed.anonymous) := by
  have hentries : (g'.stagedCanvas s).placed.map (fun p => (p.node, p.anonymous)) =
      ((g.stagedCanvas s).placed.map fun p => (p.node, p.anonymous)).map
        fun e => (π e.1, e.2) := by
    rw [h.stagedCanvas_eq, Canvas.rename, List.map_map, List.map_map]
    rfl
  rw [map_anonymous_places, map_anonymous_places, h.count_eq, hentries]
  exact (Renaming.relabels_replicate nowhere).writeAll _

theorem placeAt_eq (s : LayoutSettings α) (i : Nat) :
    (g'.placeAt s (π i)).anonymous = (g.placeAt s i).anonymous := by
  have hplace : ∀ (g : Graph) (j : Nat), (g.placeAt s j).anonymous =
      ((g.places s).map Placed.anonymous)[j]?.getD nowhere := by
    intro g j
    rw [Array.getElem?_map]
    exact (Option.getD_map Placed.anonymous nowhere _).symm
  rw [hplace, hplace, h.places s i]

theorem firstHeights (s : LayoutSettings α) :
    π.Relabels (g.firstHeights s) (g'.firstHeights s) := by
  have hheights : ∀ g : Graph,
      g.firstHeights s = ((g.places s).map Placed.anonymous).map (·.y) := by
    intro g
    rw [Array.map_map]
    rfl
  rw [hheights, hheights]
  exact (h.places s).map _

end RenamedBy

end Graph

end CallAtlas
