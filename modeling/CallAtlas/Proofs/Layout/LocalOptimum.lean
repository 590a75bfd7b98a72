import CallAtlas.Proofs.Layout.Crossing

/-!
# Reductions end in a local optimum

A pass over the slots tries one slot after the other, on heights that change under way. Still
a pass can be told by its result alone: **either it has kept no mirroring, and then it has left
everything as it was and no slot is worth mirroring; or it has kept one, and then fewer
crossings are left** (`Reduction.Exact.pass_cases`). For a mirroring that is not kept leaves no
trace, so a pass that keeps none tries all slots at the same heights.

A reduction goes on only after a pass of the second kind. So it makes no more passes than it
has kept mirrorings, and one; and if it stops before the limit, then after a pass of the first
kind or because no crossing is left. Either way the heights are a local optimum, and another
reduction would change nothing. That a reduction sets itself a limit of its own, a pass more
than there are crossings, makes no difference: it does not come to it
(`reduceCrossings_eq_ofPasses`).
-/

namespace CallAtlas

variable {α : Type} [Coordinate α]

/-- No slot is worth mirroring: no mirroring of a single slot lowers the number of crossings. -/
def LocallyOptimal (links : List StagedLink) (slots : List Slot) (ys : Heights α) : Prop :=
  ∀ slot ∈ slots, countCrossings ys links ≤ countCrossings (mirrorSlot ys slot) links

/-- Where nothing crosses, there is nothing to lower. -/
theorem locallyOptimal_of_countCrossings_eq_zero {links : List StagedLink} {ys : Heights α}
    (h : countCrossings ys links = 0) (slots : List Slot) : LocallyOptimal links slots ys := by
  intro slot _
  rw [h]
  exact Nat.zero_le _

namespace Reduction

variable {links : List StagedLink} {slots : List Slot} {n before : Nat} {r : Reduction α}

/-! ### One pass -/

/-- A slot that is tried is worth mirroring and stays mirrored, or it is not and nothing
changes. -/
theorem Exact.trySlot_cases (hsymm : SymmetricSign α) (hr : r.Exact links n before) {slot : Slot}
    (hslot : slot.Proper n) :
    (countCrossings r.heights links ≤ countCrossings (mirrorSlot r.heights slot) links ∧
        r.trySlot links slot = r) ∨
      (countCrossings (mirrorSlot r.heights slot) links < countCrossings r.heights links ∧
        (r.trySlot links slot).current < r.current ∧
        (r.trySlot links slot).reversals = r.reversals + 1) := by
  rw [hr.trySlot_eq hsymm hslot, ← hr.counts]
  split
  · rename_i hlower
    exact .inr ⟨hlower, hlower, rfl⟩
  · rename_i hnot
    exact .inl ⟨Nat.le_of_not_lt hnot, rfl⟩

/-- **A pass that keeps no mirroring changes nothing**, and no slot is worth mirroring; after
any other pass fewer crossings are left. -/
theorem Exact.pass_cases (hsymm : SymmetricSign α) (hr : r.Exact links n before)
    (hslots : ∀ slot ∈ slots, slot.Proper n) :
    (LocallyOptimal links slots r.heights ∧ slots.foldl (Reduction.trySlot links) r = r) ∨
      ((slots.foldl (Reduction.trySlot links) r).current < r.current ∧
        r.reversals < (slots.foldl (Reduction.trySlot links) r).reversals) := by
  induction slots generalizing r with
  | nil => exact .inl ⟨fun slot h => absurd h List.not_mem_nil, rfl⟩
  | cons slot slots ih =>
      obtain ⟨hslot, hslots⟩ := List.forall_mem_cons.mp hslots
      rw [List.foldl_cons]
      rcases hr.trySlot_cases hsymm hslot with ⟨hle, heq⟩ | ⟨_, hcurrent, hreversals⟩
      · rw [heq]
        rcases ih hr hslots with ⟨hoptimal, hpass⟩ | hpass
        · exact .inl ⟨List.forall_mem_cons.mpr ⟨hle, hoptimal⟩, hpass⟩
        · exact .inr hpass
      · -- The slot stays mirrored, whatever the slots after it come to.
        rcases ih (hr.trySlot hsymm hslot) hslots with ⟨_, hpass⟩ | ⟨hcurrent', hreversals'⟩
        · rw [hpass]
          exact .inr ⟨hcurrent, by omega⟩
        · exact .inr ⟨by omega, by omega⟩

/-- A pass over slots that are not worth mirroring changes nothing. -/
theorem Exact.pass_of_locallyOptimal (hsymm : SymmetricSign α) (hr : r.Exact links n before)
    (hslots : ∀ slot ∈ slots, slot.Proper n) (h : LocallyOptimal links slots r.heights) :
    slots.foldl (Reduction.trySlot links) r = r := by
  induction slots with
  | nil => rfl
  | cons slot slots ih =>
      obtain ⟨hslot, hslots⟩ := List.forall_mem_cons.mp hslots
      obtain ⟨hle, hoptimal⟩ := List.forall_mem_cons.mp h
      rw [List.foldl_cons]
      rcases hr.trySlot_cases hsymm hslot with ⟨_, heq⟩ | ⟨hlower, _⟩
      · rw [heq]
        exact ih hslots hoptimal
      · exact absurd hlower (Nat.not_lt.mpr hle)

/-! ### Pass after pass -/

/-- Every pass but the last has kept a mirroring, and passes end before the limit only where no
slot is worth mirroring. -/
theorem Exact.passes_spec (hsymm : SymmetricSign α) (hslots : ∀ slot ∈ slots, slot.Proper n)
    (fuel made : Nat) (hr : r.Exact links n before) :
    (passes links slots fuel made r).2 + r.reversals ≤
        made + (passes links slots fuel made r).1.reversals + 1 ∧
      ((passes links slots fuel made r).2 < made + fuel →
        LocallyOptimal links slots (passes links slots fuel made r).1.heights) := by
  induction fuel generalizing made r with
  | zero => exact ⟨Nat.le_succ _, fun h => absurd h (Nat.lt_irrefl made)⟩
  | succ fuel ih =>
      rw [passes]
      split
      · rename_i hcurrent
        refine ⟨Nat.le_succ _, fun _ => ?_⟩
        exact locallyOptimal_of_countCrossings_eq_zero (hr.counts.symm.trans hcurrent) slots
      · dsimp only
        rcases hr.pass_cases hsymm hslots with ⟨hoptimal, hpass⟩ | ⟨_, hreversals⟩
        · rw [hpass, if_pos rfl]
          exact ⟨by dsimp only; omega, fun _ => hoptimal⟩
        · rw [if_neg (Nat.ne_of_gt hreversals)]
          obtain ⟨hmade, hstops⟩ := ih (made + 1) (hr.foldl_trySlot hsymm hslots)
          exact ⟨by omega, fun h => hstops (by omega)⟩

/-- A limit above the number of crossings is never what ends the passes: each lowers that
number. -/
theorem Exact.passes_add (hsymm : SymmetricSign α) (hslots : ∀ slot ∈ slots, slot.Proper n)
    (fuel more made : Nat) (hr : r.Exact links n before) (h : r.current < fuel) :
    passes links slots (fuel + more) made r = passes links slots fuel made r := by
  induction fuel generalizing made r with
  | zero => exact absurd h (Nat.not_lt_zero _)
  | succ fuel ih =>
      rw [Nat.succ_add, passes, passes]
      split
      · rfl
      · dsimp only
        split
        · rfl
        · rename_i hkept
          rcases hr.pass_cases hsymm hslots with ⟨_, hpass⟩ | ⟨hcurrent, _⟩
          · exact absurd (congrArg Reduction.reversals hpass) hkept
          · exact ih (made + 1) (hr.foldl_trySlot hsymm hslots) (by omega)

/-- Passes over slots that are not worth mirroring change nothing. -/
theorem Exact.passes_of_locallyOptimal (hsymm : SymmetricSign α) (hr : r.Exact links n before)
    (hslots : ∀ slot ∈ slots, slot.Proper n) (h : LocallyOptimal links slots r.heights)
    (fuel made : Nat) : (passes links slots fuel made r).1 = r := by
  cases fuel with
  | zero => rfl
  | succ fuel =>
      rw [passes]
      split
      · rfl
      · dsimp only
        rw [hr.pass_of_locallyOptimal hsymm hslots h, if_pos rfl]

end Reduction

/-! ### Whole reductions -/

/-- What is reported when passes have come to a result, if there were `before` crossings at
first. -/
def ReductionOutcome.ofPasses (before : Nat) (result : Reduction α × Nat) : ReductionOutcome α where
  heights := result.1.heights
  before := before
  after := result.1.current
  reversals := result.1.reversals
  passes := result.2

/-- A reduction is its passes: the only limit that it comes to is the one it is given. -/
theorem reduceCrossings_eq_ofPasses (hsymm : SymmetricSign α) (links : List StagedLink)
    {ys : Heights α} {slots : List Slot} (hslots : ∀ slot ∈ slots, slot.Proper ys.size)
    (maxPasses : Nat) :
    reduceCrossings links ys slots maxPasses = .ofPasses (countCrossings ys links)
      (Reduction.passes links slots maxPasses 0 (.start links ys)) := by
  have hown : reduceCrossings links ys slots maxPasses = .ofPasses (countCrossings ys links)
      (Reduction.passes links slots (min maxPasses (countCrossings ys links + 1)) 0
        (.start links ys)) := rfl
  rw [hown]
  rcases Nat.le_total maxPasses (countCrossings ys links + 1) with hle | hle
  · rw [Nat.min_eq_left hle]
  · obtain ⟨more, rfl⟩ := Nat.exists_eq_add_of_le hle
    rw [Nat.min_eq_right hle, (Reduction.exact_start links ys).passes_add hsymm hslots
      (countCrossings ys links + 1) more 0 (Nat.lt_succ_self _)]

/-- **A reduction that stops by itself has come to a local optimum.** For all links, heights and
slots that name no entity twice: if it makes fewer passes than it may, then mirroring any one
slot more would not lower the number of crossings, and a second reduction, with any limit, moves
nothing and keeps no mirroring. Whatever the limit, it makes at most one pass more than it keeps
mirrorings, and so at most one more than there were crossings, without having to stop for that:
it is what its passes come to under the given limit. -/
theorem reduceCrossings_locallyOptimal (hsymm : SymmetricSign α) (links : List StagedLink)
    (ys : Heights α) {slots : List Slot} (hslots : ∀ slot ∈ slots, slot.Proper ys.size)
    (maxPasses : Nat) :
    let o := reduceCrossings links ys slots maxPasses
    (o.passes < maxPasses →
      (∀ slot ∈ slots,
        countCrossings o.heights links ≤ countCrossings (mirrorSlot o.heights slot) links) ∧
      ∀ again, (reduceCrossings links o.heights slots again).heights = o.heights ∧
        (reduceCrossings links o.heights slots again).reversals = 0) ∧
    o.passes ≤ o.reversals + 1 ∧ o.passes ≤ o.before + 1 ∧
    o = .ofPasses (countCrossings ys links)
      (Reduction.passes links slots maxPasses 0 (.start links ys)) := by
  intro o
  have ho : o = .ofPasses _ _ := reduceCrossings_eq_ofPasses hsymm links hslots maxPasses
  have hexact := reduceCrossings_exact hsymm links ys hslots maxPasses
  obtain ⟨hmade, hstops⟩ :=
    (Reduction.exact_start links ys).passes_spec hsymm hslots maxPasses 0
  have hpasses : o.passes ≤ o.reversals + 1 := by
    rw [ho]
    simpa [ReductionOutcome.ofPasses, Reduction.start] using hmade
  have hfalls : o.after + o.reversals ≤ o.before := hexact.falls
  refine ⟨fun hlt => ?_, hpasses, by omega, ho⟩
  have hoptimal : LocallyOptimal links slots o.heights := by
    rw [ho] at hlt ⊢
    exact hstops (by simpa [ReductionOutcome.ofPasses] using hlt)
  refine ⟨hoptimal, fun again => ?_⟩
  have hslots' : ∀ slot ∈ slots, slot.Proper o.heights.size := by
    rw [hexact.size]
    exact hslots
  have hstays := (Reduction.exact_start links o.heights).passes_of_locallyOptimal hsymm hslots'
    hoptimal again 0
  rw [reduceCrossings_eq_ofPasses hsymm links hslots' again, ReductionOutcome.ofPasses, hstays]
  exact ⟨rfl, rfl⟩

/-- Two links that cross, and the slot of their upper ends. There is one crossing to remove, so
of four passes two are made at most. -/
theorem reduceCrossings_locallyOptimal_two :
    let links : List StagedLink := [.make 3 0 1 0, .make 2 1 1 0]
    let ys : Heights ℝ := #[10, 20, 10, 20]
    let o := reduceCrossings links ys [[[2, 3]]] 4
    (∀ slot ∈ [[[2, 3]]], Slot.Proper ys.size slot) ∧ o.passes ≤ 2 ∧
      countCrossings o.heights links ≤ countCrossings (mirrorSlot o.heights [[2, 3]]) links ∧
      (reduceCrossings links o.heights [[[2, 3]]] 9).reversals = 0 := by
  intro links ys o
  have hslots : ∀ slot ∈ [[[2, 3]]], Slot.Proper ys.size slot := by
    intro slot h
    rw [List.mem_singleton.mp h]
    exact ⟨by decide, by decide⟩
  obtain ⟨hoptimal, _, hpasses, _⟩ :=
    reduceCrossings_locallyOptimal symmetricSign_real links ys hslots 4
  have hbefore : o.before = 1 := by
    rw [(reduceCrossings_exact symmetricSign_real links ys hslots 4).before_eq]
    simp [links, ys, countCrossings, StagedLink.make, StagedLink.crosses, heightOf,
      Coordinate.less, Coordinate.ofNat]
    norm_num
  have htwo : o.passes ≤ 2 := by
    rw [hbefore] at hpasses
    exact hpasses
  obtain ⟨hleast, hagain⟩ := hoptimal (Nat.lt_of_le_of_lt htwo (by decide))
  exact ⟨hslots, htwo, hleast _ (List.mem_singleton_self _), (hagain 9).2⟩

end CallAtlas
