import Mathlib.Analysis.Real.Sqrt
import Mathlib.Data.List.Nodup
import CallAtlas.Layout.Crossing
import CallAtlas.Proofs.Layout.TouchedLinks

/-!
# Counting crossings as they change

`reduceCrossings` keeps a running number of crossings and recounts, for each slot
it tries, only the links that touch the slot. This module says that the running
number is never anything but the full count.

**The step** (`Reduction.Exact.trySlot_eq`): trying a slot is the same as mirroring
it, counting all crossings again, and keeping the mirroring if the count is lower.
Four facts carry this. The loops over the slot count each pair with a link that
touches it once (`localCrossings_eq`). Crossing is symmetric, so the links can be
split into those that touch the slot and the others without losing or doubling a pair
(`countCrossings_split`). A mirroring moves nothing outside the slot, so the pairs
of other links stay as they are (`countCrossings_others`). And mirroring twice
changes nothing (`mirrorSlot_mirrorSlot`), so a mirroring that is not kept leaves
no trace.

**The run.** Whatever slots have been tried, the running number is the full count
and has fallen by one at least for every mirroring that was kept
(`Reduction.Exact.foldl_trySlot`); and a whole reduction tries slots, nothing else
(`Reduction.exists_tried_passes`).
-/

namespace CallAtlas

variable {α : Type} [Coordinate α]

/-! ### Writing into a table -/

section WriteAll

variable {β : Type}

/-- A table after entries have been written into it, one after the other. -/
def writeAll (a : Array β) (entries : List (Nat × β)) : Array β :=
  entries.foldl (fun a (i, v) => a.setIfInBounds i v) a

theorem writeAll_cons (a : Array β) (e : Nat × β) (entries : List (Nat × β)) :
    writeAll a (e :: entries) = writeAll (a.setIfInBounds e.1 e.2) entries := rfl

@[simp] theorem size_writeAll (a : Array β) (entries : List (Nat × β)) :
    (writeAll a entries).size = a.size := by
  induction entries generalizing a with
  | nil => rfl
  | cons e entries ih => rw [writeAll_cons, ih, Array.size_setIfInBounds]

theorem getElem?_writeAll_of_forall_ne {a : Array β} {entries : List (Nat × β)} {i : Nat}
    (h : ∀ e ∈ entries, e.1 ≠ i) : (writeAll a entries)[i]? = a[i]? := by
  induction entries generalizing a with
  | nil => rfl
  | cons e entries ih =>
      rw [writeAll_cons, ih fun e' he' => h e' (List.mem_cons_of_mem e he'),
        Array.getElem?_setIfInBounds_ne (h e List.mem_cons_self)]

/-- Where no position is written twice, every entry is found again. -/
theorem getElem?_writeAll_of_mem {a : Array β} {entries : List (Nat × β)} {i : Nat} {v : β}
    (hnd : (entries.map Prod.fst).Nodup) (h : (i, v) ∈ entries) (hi : i < a.size) :
    (writeAll a entries)[i]? = some v := by
  induction entries generalizing a with
  | nil => cases h
  | cons e entries ih =>
      rw [List.map_cons, List.nodup_cons] at hnd
      rw [writeAll_cons]
      rcases List.mem_cons.mp h with rfl | h
      · have hrest : ∀ e ∈ entries, e.1 ≠ i := fun e he heq =>
          hnd.1 (List.mem_map.mpr ⟨e, he, heq⟩)
        rw [getElem?_writeAll_of_forall_ne hrest, Array.getElem?_setIfInBounds_self_of_lt hi]
      · exact ih hnd.2 h (by rw [Array.size_setIfInBounds]; exact hi)

end WriteAll

/-! ### Crossing pairs -/

/-- Whether two differences have opposite signs does not change when both are taken
the other way round. Exact numbers have this, and so have doubles, whose differences
change nothing but the sign. -/
def SymmetricSign (α : Type) [Coordinate α] : Prop :=
  ∀ a b c d : α, Coordinate.less ((a - b) * (c - d)) (Coordinate.ofNat 0) =
    Coordinate.less ((b - a) * (d - c)) (Coordinate.ofNat 0)

/-- Real numbers as coordinates: the layout without rounding. -/
noncomputable instance : Coordinate ℝ where
  ofNat n := n
  less x y := decide (x < y)
  order x y := compare x y
  larger := max
  smaller := min
  length x y := √(x ^ 2 + y ^ 2)

theorem symmetricSign_real : SymmetricSign ℝ := by
  intro a b c d
  have hprod : (a - b) * (c - d) = (b - a) * (d - c) := by ring
  change decide ((a - b) * (c - d) < ((0 : ℕ) : ℝ)) = decide ((b - a) * (d - c) < ((0 : ℕ) : ℝ))
  rw [hprod]

namespace StagedLink

theorem crosses_comm (hsymm : SymmetricSign α) (a b : StagedLink) (ys : Heights α) :
    a.crosses b ys = b.crosses a ys := by
  unfold crosses
  rw [hsymm, Nat.max_comm, Nat.min_comm]

/-- Crossing depends on the heights of the ends only. -/
theorem crosses_congr {a b : StagedLink} {ys zs : Heights α}
    (ha : heightOf zs a.low = heightOf ys a.low ∧ heightOf zs a.high = heightOf ys a.high)
    (hb : heightOf zs b.low = heightOf ys b.low ∧ heightOf zs b.high = heightOf ys b.high) :
    a.crosses b zs = a.crosses b ys := by
  unfold crosses
  rw [ha.1, ha.2, hb.1, hb.2]

end StagedLink

theorem countCrossings_append (ys : Heights α) (these those : List StagedLink) :
    countCrossings ys (these ++ those) =
      crossingsWith ys these those + countCrossings ys those := by
  induction these with
  | nil => simp [crossingsWith, countCrossings, crossingsBetween]
  | cons a these ih =>
      rw [List.cons_append, countCrossings, ih, crossingsWith_cons, Nat.add_assoc]

/-- The number of crossing pairs does not depend on the order of the links. -/
theorem countCrossings_perm (hsymm : SymmetricSign α) (ys : Heights α)
    {these those : List StagedLink} (h : these.Perm those) :
    countCrossings ys these = countCrossings ys those := by
  induction h with
  | nil => rfl
  | cons a h ih => rw [countCrossings, countCrossings, h.countP_eq, ih]
  | swap a b rest =>
      simp only [countCrossings, List.countP_cons, StagedLink.crosses_comm hsymm b a]
      omega
  | trans _ _ ih ih' => exact ih.trans ih'

/-- Every crossing pair has a link of some kind or has none. -/
theorem countCrossings_split (hsymm : SymmetricSign α) (ys : Heights α)
    (links : List StagedLink) (p : StagedLink → Bool) :
    countCrossings ys links = crossingsWith ys (links.filter p) (links.filter (!p ·)) +
      countCrossings ys (links.filter (!p ·)) := by
  rw [← countCrossings_append]
  exact countCrossings_perm hsymm ys (List.filter_append_perm p links).symm

/-- The number of crossing pairs depends on the heights of the ends only. -/
theorem countCrossings_congr {ys zs : Heights α} {links : List StagedLink}
    (h : ∀ a ∈ links, heightOf zs a.low = heightOf ys a.low ∧
      heightOf zs a.high = heightOf ys a.high) :
    countCrossings zs links = countCrossings ys links := by
  induction links with
  | nil => rfl
  | cons a links ih =>
      have ha := h a List.mem_cons_self
      have hrest := fun b hb => h b (List.mem_cons_of_mem a hb)
      rw [countCrossings, countCrossings, ih hrest,
        List.countP_congr fun b hb => by rw [StagedLink.crosses_congr ha (hrest b hb)]]

/-! ### Mirroring -/

/-- In every run of a slot, the first entity trades places with the last one, the
second with the last but one, and so on. -/
def Mirrors (slot : Slot) (i j : Nat) : Prop := ∃ run ∈ slot, (i, j) ∈ run.zip run.reverse

theorem mem_zip_reverse_symm {run : List Nat} {i j : Nat} (h : (i, j) ∈ run.zip run.reverse) :
    (j, i) ∈ run.zip run.reverse := by
  obtain ⟨k, hk, heq⟩ := List.mem_iff_getElem.mp h
  rw [List.length_zip, List.length_reverse, Nat.min_self] at hk
  rw [List.getElem_zip, List.getElem_reverse] at heq
  obtain ⟨rfl, rfl⟩ := Prod.mk.inj heq
  have hk' : run.length - 1 - k < (run.zip run.reverse).length := by
    rw [List.length_zip, List.length_reverse, Nat.min_self]
    omega
  -- The partner of the `k`-th from the top is the `k`-th from the bottom.
  have hback : run.length - 1 - (run.length - 1 - k) = k := by omega
  refine List.mem_iff_getElem.mpr ⟨run.length - 1 - k, hk', ?_⟩
  rw [List.getElem_zip, List.getElem_reverse]
  simp only [hback]

theorem exists_mem_zip_reverse {run : List Nat} {i : Nat} (h : i ∈ run) :
    ∃ j, (i, j) ∈ run.zip run.reverse := by
  obtain ⟨k, hk, rfl⟩ := List.mem_iff_getElem.mp h
  have hrev : k < run.reverse.length := by rwa [List.length_reverse]
  have hzip : k < (run.zip run.reverse).length := by
    rw [List.length_zip]
    exact Nat.lt_min.mpr ⟨hk, hrev⟩
  exact ⟨run.reverse[k], List.mem_iff_getElem.mpr ⟨k, hzip, List.getElem_zip⟩⟩

theorem Mirrors.symm {slot : Slot} {i j : Nat} (h : Mirrors slot i j) : Mirrors slot j i := by
  obtain ⟨run, hrun, hmem⟩ := h
  exact ⟨run, hrun, mem_zip_reverse_symm hmem⟩

/-- A slot names positions below a bound, and none of them twice. -/
structure Slot.Proper (n : Nat) (slot : Slot) : Prop where
  nodup : slot.flatten.Nodup
  lt : ∀ i ∈ slot.flatten, i < n

theorem Mirrors.mem_flatten {slot : Slot} {i j : Nat} (h : Mirrors slot i j) :
    i ∈ slot.flatten := by
  obtain ⟨run, hrun, hmem⟩ := h
  exact List.mem_flatten.mpr ⟨run, hrun, (List.of_mem_zip hmem).1⟩

theorem exists_mirrors {slot : Slot} {i : Nat} (h : i ∈ slot.flatten) : ∃ j, Mirrors slot i j := by
  obtain ⟨run, hrun, hi⟩ := List.mem_flatten.mp h
  obtain ⟨j, hj⟩ := exists_mem_zip_reverse hi
  exact ⟨j, run, hrun, hj⟩

theorem mirrorRun_eq (ys : Heights α) (run : List Nat) :
    mirrorRun ys run =
      writeAll ys ((run.zip run.reverse).map fun p => (p.1, heightOf ys p.2)) := by
  have hzip : run.zip (run.map (heightOf ys)).reverse =
      (run.zip run.reverse).map fun p => (p.1, heightOf ys p.2) := by
    rw [← List.map_reverse, List.zip_map_right]
    rfl
  unfold mirrorRun
  rw [hzip]
  rfl

@[simp] theorem size_mirrorRun (ys : Heights α) (run : List Nat) :
    (mirrorRun ys run).size = ys.size := by
  rw [mirrorRun_eq, size_writeAll]

theorem heightOf_mirrorRun_of_not_mem {ys : Heights α} {run : List Nat} {i : Nat} (h : i ∉ run) :
    heightOf (mirrorRun ys run) i = heightOf ys i := by
  unfold heightOf
  rw [mirrorRun_eq, getElem?_writeAll_of_forall_ne]
  intro e he heq
  obtain ⟨p, hp, rfl⟩ := List.mem_map.mp he
  exact h (heq ▸ (List.of_mem_zip (a := p.1) (b := p.2) hp).1)

theorem heightOf_mirrorRun_of_mem {ys : Heights α} {run : List Nat} {i j : Nat} (hnd : run.Nodup)
    (hi : i < ys.size) (h : (i, j) ∈ run.zip run.reverse) :
    heightOf (mirrorRun ys run) i = heightOf ys j := by
  have hkeys : ((run.zip run.reverse).map fun p => (p.1, heightOf ys p.2)).map Prod.fst = run := by
    rw [List.map_map]
    exact List.map_fst_zip (Nat.le_of_eq List.length_reverse.symm)
  conv_lhs => unfold heightOf
  rw [mirrorRun_eq, getElem?_writeAll_of_mem (hkeys.symm ▸ hnd)
    (List.mem_map_of_mem (f := fun p : Nat × Nat => (p.1, heightOf ys p.2)) h) hi,
    Option.getD_some]

@[simp] theorem size_mirrorSlot (ys : Heights α) (slot : Slot) :
    (mirrorSlot ys slot).size = ys.size := by
  unfold mirrorSlot
  induction slot generalizing ys with
  | nil => rfl
  | cons run slot ih => rw [List.foldl_cons, ih, size_mirrorRun]

/-- Mirroring moves nothing outside the slot. -/
theorem heightOf_mirrorSlot_of_not_mem {ys : Heights α} {slot : Slot} {i : Nat}
    (h : i ∉ slot.flatten) : heightOf (mirrorSlot ys slot) i = heightOf ys i := by
  unfold mirrorSlot
  induction slot generalizing ys with
  | nil => rfl
  | cons run slot ih =>
      rw [List.flatten_cons, List.mem_append, not_or] at h
      rw [List.foldl_cons, ih h.2, heightOf_mirrorRun_of_not_mem h.1]

/-- Within the slot, every entity gets the height of the one it trades places
with. The runs are disjoint, so each is mirrored at the heights it started with. -/
theorem heightOf_mirrorSlot_of_mirrors {ys : Heights α} {slot : Slot} {i j : Nat}
    (hslot : slot.Proper ys.size) (h : Mirrors slot i j) :
    heightOf (mirrorSlot ys slot) i = heightOf ys j := by
  induction slot generalizing ys with
  | nil => obtain ⟨_, hrun, _⟩ := h; cases hrun
  | cons run slot ih =>
      obtain ⟨hrun_nodup, hslot_nodup, hdisjoint⟩ := List.nodup_append.mp hslot.nodup
      have hlt : ∀ k ∈ slot.flatten, k < ys.size :=
        fun k hk => hslot.lt k (List.mem_append_right run hk)
      have hstep : mirrorSlot ys (run :: slot) = mirrorSlot (mirrorRun ys run) slot := rfl
      rw [hstep]
      obtain ⟨run', hmem, hzip⟩ := h
      rcases List.mem_cons.mp hmem with rfl | hmem
      · -- `i` is in the first run, and the later ones leave it alone.
        have hi : i ∈ run' := (List.of_mem_zip hzip).1
        rw [heightOf_mirrorSlot_of_not_mem fun hi' => hdisjoint i hi i hi' rfl,
          heightOf_mirrorRun_of_mem hrun_nodup (hslot.lt i (List.mem_append_left _ hi)) hzip]
      · -- `i` is in a later run, and so is `j`, which the first run has not moved.
        have hmirrors : Mirrors slot i j := ⟨run', hmem, hzip⟩
        have hj : j ∉ run := fun hj => hdisjoint j hj j hmirrors.symm.mem_flatten rfl
        rw [ih ⟨hslot_nodup, by rwa [size_mirrorRun]⟩ hmirrors, heightOf_mirrorRun_of_not_mem hj]

theorem heights_ext {ys zs : Heights α} (hsize : zs.size = ys.size)
    (h : ∀ i < ys.size, heightOf zs i = heightOf ys i) : zs = ys := by
  apply Array.ext hsize
  intro i hi hi'
  have hi := h i hi'
  unfold heightOf at hi
  simpa [hsize, hi'] using hi

/-- **Mirroring twice changes nothing.** -/
theorem mirrorSlot_mirrorSlot {ys : Heights α} {slot : Slot} (hslot : slot.Proper ys.size) :
    mirrorSlot (mirrorSlot ys slot) slot = ys := by
  apply heights_ext (by simp)
  intro i _
  by_cases hi : i ∈ slot.flatten
  · obtain ⟨j, hj⟩ := exists_mirrors hi
    rw [heightOf_mirrorSlot_of_mirrors ⟨hslot.nodup, by simpa using hslot.lt⟩ hj,
      heightOf_mirrorSlot_of_mirrors hslot hj.symm]
  · rw [heightOf_mirrorSlot_of_not_mem hi, heightOf_mirrorSlot_of_not_mem hi]

/-- Runs of one entity are their own mirror images. -/
theorem mirrorSlot_of_short {ys : Heights α} {slot : Slot} (hslot : slot.Proper ys.size)
    (h : slot.all (·.length < 2) = true) : mirrorSlot ys slot = ys := by
  have hself : ∀ i j, Mirrors slot i j → j = i := by
    rintro i j ⟨run, hrun, hzip⟩
    have hlen : run.length < 2 := by simpa using List.all_eq_true.mp h run hrun
    match run, hlen, hzip with
    | [], _, hzip => cases hzip
    | [k], _, hzip =>
        obtain ⟨rfl, rfl⟩ := Prod.mk.inj (List.mem_singleton.mp hzip)
        rfl
  apply heights_ext (size_mirrorSlot ys slot)
  intro i _
  by_cases hi : i ∈ slot.flatten
  · obtain ⟨j, hj⟩ := exists_mirrors hi
    rw [heightOf_mirrorSlot_of_mirrors hslot hj, hself i j hj]
  · rw [heightOf_mirrorSlot_of_not_mem hi]

/-- Mirroring a slot changes no crossing of two links that do not touch it. -/
theorem countCrossings_others (ys : Heights α) (slot : Slot) (links : List StagedLink) :
    countCrossings (mirrorSlot ys slot) (links.filter (!·.touches slot)) =
      countCrossings ys (links.filter (!·.touches slot)) := by
  apply countCrossings_congr
  intro a ha
  have hout : ¬ a.touches slot = true := by simpa using (List.mem_filter.mp ha).2
  rw [StagedLink.touches_iff, not_or] at hout
  exact ⟨heightOf_mirrorSlot_of_not_mem hout.1, heightOf_mirrorSlot_of_not_mem hout.2⟩

/-! ### One slot -/

namespace Reduction

/-- The running number of crossings is the full count. -/
def Counts (links : List StagedLink) (r : Reduction α) : Prop :=
  r.current = countCrossings r.heights links

/-- What a reduction finds between two slots: the table of the links at each of the
entities, and no link marked. -/
structure Ready (links : List StagedLink) (r : Reduction α) : Prop where
  incident_eq : r.incident = incidentLinks r.heights.size links
  marks_eq : r.marks = Array.replicate links.length false

/-- The crossings that a slot takes part in: the pairs of links one of which touches it. -/
def slotCrossings (links : List StagedLink) (ys : Heights α) (slot : Slot) : Nat :=
  crossingsWith ys (links.filter (·.touches slot)) (links.filter (!·.touches slot))

theorem countCrossings_eq_slotCrossings (hsymm : SymmetricSign α) (ys : Heights α)
    (links : List StagedLink) (slot : Slot) :
    countCrossings ys links =
      slotCrossings links ys slot + countCrossings ys (links.filter (!·.touches slot)) :=
  countCrossings_split hsymm ys links _

/-- Mirroring a slot lowers the full count by as much as it lowers the crossings
the slot takes part in. -/
theorem countCrossings_mirrorSlot (hsymm : SymmetricSign α) (ys : Heights α)
    (links : List StagedLink) (slot : Slot) :
    countCrossings (mirrorSlot ys slot) links + slotCrossings links ys slot =
      countCrossings ys links + slotCrossings links (mirrorSlot ys slot) slot := by
  rw [countCrossings_eq_slotCrossings hsymm (mirrorSlot ys slot) links slot,
    countCrossings_eq_slotCrossings hsymm ys links slot, countCrossings_others]
  omega

variable {links : List StagedLink} {r : Reduction α} {slot : Slot}

omit [Coordinate α] in
theorem Ready.isEmpty_touchedLinks (hr : r.Ready links) (hslot : slot.Proper r.heights.size) :
    (touchedLinks r.incident slot).isEmpty = (links.filter (·.touches slot)).isEmpty := by
  rw [hr.incident_eq]
  exact CallAtlas.isEmpty_touchedLinks hslot.lt links

omit [Coordinate α] in
/-- The marks of a slot are taken away again. -/
theorem Ready.setMarks_eq (hr : r.Ready links) (touched : List Nat) :
    setMarks false (setMarks true r.marks touched) touched = r.marks := by
  rw [hr.marks_eq]
  exact setMarks_false_setMarks_true _ _

/-- What the loops count for a slot, at whatever heights, are the crossings that it
takes part in. -/
theorem Ready.localCrossings_eq (hr : r.Ready links) (hslot : slot.Proper r.heights.size)
    (ys : Heights α) :
    localCrossings ys links (setMarks true r.marks (touchedLinks r.incident slot))
      (touchedLinks r.incident slot) = slotCrossings links ys slot := by
  rw [hr.incident_eq, hr.marks_eq]
  exact CallAtlas.localCrossings_eq hslot.lt links ys

/-- No more crossings are counted for a slot than the running number has. -/
theorem Ready.localCrossings_le (hsymm : SymmetricSign α) (hr : r.Ready links)
    (hcounts : r.Counts links) (hslot : slot.Proper r.heights.size) :
    localCrossings r.heights links (setMarks true r.marks (touchedLinks r.incident slot))
      (touchedLinks r.incident slot) ≤ r.current := by
  rw [hr.localCrossings_eq hslot, hcounts,
    countCrossings_eq_slotCrossings hsymm r.heights links slot]
  exact Nat.le_add_right _ _

theorem slotCrossings_of_untouched (h : (links.filter (·.touches slot)).isEmpty = true)
    (ys : Heights α) : slotCrossings links ys slot = 0 := by
  unfold slotCrossings
  rw [List.isEmpty_iff.mp h]
  rfl

/-- Trying a slot, in terms of the crossings it takes part in. No mark is left behind. -/
theorem Ready.trySlot_eq_ite (hr : r.Ready links) (hslot : slot.Proper r.heights.size) :
    r.trySlot links slot =
      if slot.all (·.length < 2) then r
      else if (links.filter (·.touches slot)).isEmpty then r
      else if slotCrossings links (mirrorSlot r.heights slot) slot <
          slotCrossings links r.heights slot then
        { r with
          heights := mirrorSlot r.heights slot
          current := r.current - slotCrossings links r.heights slot +
            slotCrossings links (mirrorSlot r.heights slot) slot
          reversals := r.reversals + 1 }
      else r := by
  unfold trySlot
  simp only [hr.localCrossings_eq hslot, hr.isEmpty_touchedLinks hslot, hr.setMarks_eq,
    mirrorSlot_mirrorSlot hslot]
  split
  · rfl
  split
  · rfl
  split <;> rfl

/-- **Trying a slot is mirroring it, counting all crossings again, and keeping the
mirroring if there are fewer.** The cases are those of `trySlot`; in the two that
pass the slot over, mirroring would not have lowered the count. -/
theorem Ready.trySlot_eq (hsymm : SymmetricSign α) (hr : r.Ready links)
    (hcounts : r.Counts links) (hslot : slot.Proper r.heights.size) :
    r.trySlot links slot =
      if countCrossings (mirrorSlot r.heights slot) links < r.current then
        { r with
          heights := mirrorSlot r.heights slot
          current := countCrossings (mirrorSlot r.heights slot) links
          reversals := r.reversals + 1 }
      else r := by
  have hchange := countCrossings_mirrorSlot hsymm r.heights links slot
  have hle := countCrossings_eq_slotCrossings hsymm r.heights links slot
  rw [← hcounts] at hchange hle
  rw [hr.trySlot_eq_ite hslot]
  split
  · rename_i hshort
    -- Mirroring would change nothing.
    rw [mirrorSlot_of_short hslot hshort, ← hcounts, if_neg (Nat.lt_irrefl _)]
  · split
    · rename_i hempty
      -- Mirroring would move no end of a link.
      rw [slotCrossings_of_untouched hempty, slotCrossings_of_untouched hempty] at hchange
      rw [if_neg (by omega)]
    · split
      · rw [if_pos (by omega)]
        congr 1
        omega
      · rw [if_neg (by omega)]

/-! ### Any number of slots -/

/-- What is true between two slots, when there were `before` crossings of links
between `n` entities at first. -/
structure Exact (links : List StagedLink) (n before : Nat) (r : Reduction α) : Prop where
  size : r.heights.size = n
  ready : r.Ready links
  counts : r.Counts links
  /-- Every mirroring that was kept has removed a crossing. -/
  falls : r.current + r.reversals ≤ before

theorem current_start (links : List StagedLink) (ys : Heights α) :
    (start links ys).current = countCrossings ys links := rfl

theorem exact_start (links : List StagedLink) (ys : Heights α) :
    (start links ys).Exact links ys.size (countCrossings ys links) :=
  ⟨rfl, ⟨rfl, rfl⟩, rfl, Nat.le_refl _⟩

variable {n before : Nat}

theorem Exact.trySlot_eq (hsymm : SymmetricSign α) (hr : r.Exact links n before)
    (hslot : slot.Proper n) :
    r.trySlot links slot =
      if countCrossings (mirrorSlot r.heights slot) links < r.current then
        { r with
          heights := mirrorSlot r.heights slot
          current := countCrossings (mirrorSlot r.heights slot) links
          reversals := r.reversals + 1 }
      else r :=
  hr.ready.trySlot_eq hsymm hr.counts (hr.size.symm ▸ hslot)

theorem Exact.trySlot (hsymm : SymmetricSign α) (hr : r.Exact links n before)
    (hslot : slot.Proper n) : (r.trySlot links slot).Exact links n before := by
  rw [hr.trySlot_eq hsymm hslot]
  split
  · have hsize : (mirrorSlot r.heights slot).size = r.heights.size := size_mirrorSlot _ _
    refine ⟨hsize.trans hr.size, ⟨?_, hr.ready.marks_eq⟩, rfl, ?_⟩
    · rw [hsize]
      exact hr.ready.incident_eq
    · have hfalls := hr.falls
      dsimp only
      omega
  · exact hr

theorem Exact.foldl_trySlot (hsymm : SymmetricSign α) {slots : List Slot}
    (hslots : ∀ slot ∈ slots, slot.Proper n) (hr : r.Exact links n before) :
    (slots.foldl (Reduction.trySlot links) r).Exact links n before :=
  List.foldlRecOn slots _ hr fun _ h slot hmem => h.trySlot hsymm (hslots slot hmem)

/-- Passes try slots one after the other, and do nothing else. -/
theorem exists_tried_passes (links : List StagedLink) (slots : List Slot) (fuel made : Nat)
    (r : Reduction α) :
    ∃ tried : List Slot, (∀ slot ∈ tried, slot ∈ slots) ∧
      (passes links slots fuel made r).1 = tried.foldl (Reduction.trySlot links) r := by
  induction fuel generalizing made r with
  | zero => exact ⟨[], fun slot h => absurd h List.not_mem_nil, rfl⟩
  | succ fuel ih =>
      rw [passes]
      split
      · exact ⟨[], fun slot h => absurd h List.not_mem_nil, rfl⟩
      · dsimp only
        split
        · exact ⟨slots, fun slot h => h, rfl⟩
        · obtain ⟨tried, hsub, heq⟩ := ih (made + 1) (slots.foldl (Reduction.trySlot links) r)
          refine ⟨slots ++ tried, ?_, by rw [heq, List.foldl_append]⟩
          intro slot h
          rcases List.mem_append.mp h with h | h
          · exact h
          · exact hsub slot h

theorem passes_le (links : List StagedLink) (slots : List Slot) (fuel made : Nat)
    (r : Reduction α) : (passes links slots fuel made r).2 ≤ made + fuel := by
  induction fuel generalizing made r with
  | zero => exact Nat.le_refl _
  | succ fuel ih =>
      rw [passes]
      split
      · exact Nat.le_add_right _ _
      · dsimp only
        split
        · exact Nat.add_le_add_left (Nat.succ_le_succ (Nat.zero_le fuel)) made
        · have hle := ih (made + 1) (slots.foldl (Reduction.trySlot links) r)
          omega

end Reduction

/-! ### Whole reductions -/

/-- What a reduction reports is what a full count at its heights gives. -/
structure ReductionOutcome.Exact (links : List StagedLink) (ys : Heights α) (maxPasses : Nat)
    (o : ReductionOutcome α) : Prop where
  size : o.heights.size = ys.size
  before_eq : o.before = countCrossings ys links
  after_eq : o.after = countCrossings o.heights links
  falls : o.after + o.reversals ≤ o.before
  passes_le : o.passes ≤ maxPasses

theorem reduceCrossings_exact (hsymm : SymmetricSign α) (links : List StagedLink) (ys : Heights α)
    {slots : List Slot} (hslots : ∀ slot ∈ slots, slot.Proper ys.size) (maxPasses : Nat) :
    (reduceCrossings links ys slots maxPasses).Exact links ys maxPasses := by
  obtain ⟨tried, hsub, heq⟩ := Reduction.exists_tried_passes links slots
    (min maxPasses (countCrossings ys links + 1)) 0 (.start links ys)
  have hexact := (Reduction.exact_start links ys).foldl_trySlot hsymm
    fun slot h => hslots slot (hsub slot h)
  have hpasses := Reduction.passes_le links slots
    (min maxPasses (countCrossings ys links + 1)) 0 (.start links ys)
  rw [← heq] at hexact
  refine ⟨hexact.size, rfl, hexact.counts, hexact.falls, ?_⟩
  exact Nat.le_trans hpasses (by omega)

end CallAtlas
