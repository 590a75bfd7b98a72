import Mathlib.Data.Finset.Card
import Mathlib.Logic.Relation
import CallAtlas.Layout.Staging

/-!
# The walk that works out stages

`Staging.visit` works out the stage of a position after those of its callees. A
callee that is still under way closes a cycle and is passed over. This module is
about the walk alone, for any function that lists callees; what it means for a
graph is said in `CallAtlas.Proofs.Layout.Staging`.

**Two ghosts.** The walk counts the links it passes over but does not keep them,
and it keeps its stack in its recursion. The proof carries both along: `under` is
the list of positions under way, and `cut` the set of links passed over.
`Staging.Sound` ties them to the state: the marks say what is under way, the count
is the size of `cut`, every link in `cut` lies on a cycle, and every position that
is done has the stage that its callees outside `cut` give it.

**What a visit may change** is said by `Staging.Grows`: what is done stays as it
is, and a link that is passed over starts from a position that had not been
touched. So the links of the position being visited are its own business, whatever
the visits of its callees do.

**The bound.** A visit goes one level deeper only at an untouched position, which
it touches; the number of untouched positions is all the depth a visit needs.
-/

namespace CallAtlas.Staging

/-! ### Marks and stages after one change -/

/-- One entry of a table with a fallback is replaced. -/
theorem getD_setIfInBounds {α : Type} {as : Array α} {i : Nat} (hi : i < as.size) (a fallback : α)
    (j : Nat) :
    ((as.setIfInBounds i a)[j]?).getD fallback = if j = i then a else (as[j]?).getD fallback := by
  rw [Array.getElem?_setIfInBounds]
  by_cases h : i = j
  · subst h
    simp [hi]
  · simp [h, Ne.symm h]

theorem mark_enter {s : Staging} {i : Nat} (hi : i < s.marks.size) (j : Nat) :
    (s.enter i).mark j = if j = i then .underWay else s.mark j :=
  getD_setIfInBounds hi .underWay .done j

theorem mark_leave {s : Staging} {i : Nat} (hi : i < s.marks.size) (k j : Nat) :
    (s.leave i k).mark j = if j = i then .done else s.mark j :=
  getD_setIfInBounds hi .done .done j

theorem stage_leave {s : Staging} {i : Nat} (hi : i < s.stages.size) (k j : Nat) :
    (s.leave i k).stage j = if j = i then k else s.stage j :=
  getD_setIfInBounds hi k 0 j

/-! ### Highest stages -/

/-- `h` is the highest stage among those of `ds` that `i` is linked to outside
`cut`, all of which are done; it is zero if there are none. -/
structure IsHighest (s : Staging) (cut : Finset (Nat × Nat)) (i : Nat) (ds : List Nat) (h : Nat) :
    Prop where
  done : ∀ d ∈ ds, (i, d) ∉ cut → s.mark d = .done
  le : ∀ d ∈ ds, (i, d) ∉ cut → s.stage d ≤ h
  attained : h = 0 ∨ ∃ d ∈ ds, (i, d) ∉ cut ∧ s.stage d = h

theorem isHighest_nil (s : Staging) (cut : Finset (Nat × Nat)) (i : Nat) :
    IsHighest s cut i [] 0 :=
  ⟨fun _ hd => absurd hd List.not_mem_nil, fun _ hd => absurd hd List.not_mem_nil, Or.inl rfl⟩

/-- One more callee that is done and not cut off. -/
theorem IsHighest.concat {s : Staging} {cut : Finset (Nat × Nat)} {i : Nat} {ds : List Nat}
    {h d : Nat} (hh : IsHighest s cut i ds h) (hcut : (i, d) ∉ cut) (hd : s.mark d = .done) :
    IsHighest s cut i (ds ++ [d]) (max h (s.stage d)) where
  done := by
    intro c hc hci
    rcases List.mem_append.mp hc with hc | hc
    · exact hh.done c hc hci
    · rw [List.mem_singleton.mp hc]
      exact hd
  le := by
    intro c hc hci
    rcases List.mem_append.mp hc with hc | hc
    · exact Nat.le_trans (hh.le c hc hci) (Nat.le_max_left _ _)
    · rw [List.mem_singleton.mp hc]
      exact Nat.le_max_right _ _
  attained := by
    rcases Nat.le_total (s.stage d) h with hle | hle
    · rw [Nat.max_eq_left hle]
      rcases hh.attained with hzero | ⟨c, hc, hci, hstage⟩
      · exact Or.inl hzero
      · exact Or.inr ⟨c, List.mem_append_left _ hc, hci, hstage⟩
    · rw [Nat.max_eq_right hle]
      exact Or.inr ⟨d, List.mem_append_right _ (List.mem_singleton_self d), hcut, rfl⟩

/-- One more callee that is cut off. -/
theorem IsHighest.concat_cut {s : Staging} {cut : Finset (Nat × Nat)} {i : Nat} {ds : List Nat}
    {h d : Nat} (hh : IsHighest s cut i ds h) (hd : d ∉ ds) :
    IsHighest s (insert (i, d) cut) i (ds ++ [d]) h where
  done := by
    intro c hc hci
    rw [Finset.mem_insert, not_or] at hci
    rcases List.mem_append.mp hc with hc | hc
    · exact hh.done c hc hci.2
    · exact absurd (by rw [List.mem_singleton.mp hc]) hci.1
  le := by
    intro c hc hci
    rw [Finset.mem_insert, not_or] at hci
    rcases List.mem_append.mp hc with hc | hc
    · exact hh.le c hc hci.2
    · exact absurd (by rw [List.mem_singleton.mp hc]) hci.1
  attained := by
    rcases hh.attained with hzero | ⟨c, hc, hci, hstage⟩
    · exact Or.inl hzero
    · refine Or.inr ⟨c, List.mem_append_left _ hc, ?_, hstage⟩
      rw [Finset.mem_insert, not_or]
      refine ⟨fun heq => hd ?_, hci⟩
      rw [← (Prod.mk.inj heq).2]
      exact hc

/-- What is highest depends on the links of `i` and on the callees that are done
only. -/
theorem IsHighest.congr {s s' : Staging} {cut cut' : Finset (Nat × Nat)} {i k : Nat}
    {ds : List Nat} (hh : IsHighest s cut i ds k) (hcut : ∀ d, (i, d) ∈ cut' ↔ (i, d) ∈ cut)
    (hdone : ∀ d, s.mark d = .done → s'.mark d = .done ∧ s'.stage d = s.stage d) :
    IsHighest s' cut' i ds k where
  done := by
    intro d hd hci
    exact (hdone d (hh.done d hd (mt (hcut d).mpr hci))).1
  le := by
    intro d hd hci
    have hci' : (i, d) ∉ cut := mt (hcut d).mpr hci
    rw [(hdone d (hh.done d hd hci')).2]
    exact hh.le d hd hci'
  attained := by
    rcases hh.attained with hzero | ⟨d, hd, hci, hstage⟩
    · exact Or.inl hzero
    · refine Or.inr ⟨d, hd, mt (hcut d).mp hci, ?_⟩
      rw [(hdone d (hh.done d hd hci)).2]
      exact hstage

/-! ### What a visit may change -/

/-- From one state to a later one: what is done stays as it is, what is touched
stays touched, and links are only added to the cut where their start was
untouched. -/
structure Grows (s : Staging) (cut : Finset (Nat × Nat)) (s' : Staging)
    (cut' : Finset (Nat × Nat)) : Prop where
  done : ∀ i, s.mark i = .done → s'.mark i = .done ∧ s'.stage i = s.stage i
  touched : ∀ i, s.mark i ≠ .untouched → s'.mark i ≠ .untouched
  cut_subset : cut ⊆ cut'
  fresh : ∀ e ∈ cut', e ∉ cut → s.mark e.1 = .untouched

theorem Grows.refl (s : Staging) (cut : Finset (Nat × Nat)) : Grows s cut s cut :=
  ⟨fun _ h => ⟨h, rfl⟩, fun _ h => h, Finset.Subset.refl cut, fun _ h h' => absurd h h'⟩

theorem Grows.trans {s s' s'' : Staging} {cut cut' cut'' : Finset (Nat × Nat)}
    (h : Grows s cut s' cut') (h' : Grows s' cut' s'' cut'') : Grows s cut s'' cut'' where
  done := by
    intro i hi
    obtain ⟨hdone, hstage⟩ := h.done i hi
    obtain ⟨hdone', hstage'⟩ := h'.done i hdone
    exact ⟨hdone', hstage'.trans hstage⟩
  touched := fun i hi => h'.touched i (h.touched i hi)
  cut_subset := h.cut_subset.trans h'.cut_subset
  fresh := by
    intro e he hne
    by_cases he' : e ∈ cut'
    · exact h.fresh e he' hne
    · by_contra hi
      exact h.touched e.1 hi (h'.fresh e he he')

/-- The links of a position that is touched are not touched by growth. -/
theorem Grows.mem_cut_iff {s s' : Staging} {cut cut' : Finset (Nat × Nat)}
    (h : Grows s cut s' cut') {i : Nat} (hi : s.mark i ≠ .untouched) (d : Nat) :
    (i, d) ∈ cut' ↔ (i, d) ∈ cut := by
  constructor
  · intro hmem
    by_contra hne
    exact hi (h.fresh (i, d) hmem hne)
  · intro hmem
    exact h.cut_subset hmem

theorem IsHighest.grows {s s' : Staging} {cut cut' : Finset (Nat × Nat)} {i k : Nat}
    {ds : List Nat} (hh : IsHighest s cut i ds k) (h : Grows s cut s' cut')
    (hi : s.mark i ≠ .untouched) : IsHighest s' cut' i ds k :=
  hh.congr (h.mem_cut_iff hi) h.done

/-- How many of the first `n` positions are untouched. -/
def untouched (s : Staging) (n : Nat) : Nat :=
  ((Finset.range n).filter (s.mark · = .untouched)).card

theorem untouched_pos {s : Staging} {n i : Nat} (hi : i < n) (hs : s.mark i = .untouched) :
    0 < s.untouched n :=
  Finset.card_pos.mpr ⟨i, by simp [hi, hs]⟩

/-- A position that is touched meanwhile is one untouched position less. -/
theorem Grows.untouched_lt {s s' : Staging} {cut cut' : Finset (Nat × Nat)}
    (h : Grows s cut s' cut') {n i : Nat} (hi : i < n) (hs : s.mark i = .untouched)
    (hs' : s'.mark i ≠ .untouched) : s'.untouched n < s.untouched n := by
  apply Finset.card_lt_card
  rw [Finset.ssubset_iff_of_subset]
  · exact ⟨i, by simp [hi, hs], by simp [hs']⟩
  · intro j hj
    rw [Finset.mem_filter] at hj ⊢
    refine ⟨hj.1, ?_⟩
    by_contra hne
    exact h.touched j hne hj.2

/-! ### The invariant -/

/-- Following callees leads from one position to another. -/
def Leads (callees : Nat → List Nat) : Nat → Nat → Prop :=
  Relation.ReflTransGen fun a b => b ∈ callees a

/-- A position has the stage that its callees outside `cut` give it. -/
def HasStage (callees : Nat → List Nat) (s : Staging) (cut : Finset (Nat × Nat)) (i : Nat) : Prop :=
  ∃ h, IsHighest s cut i (callees i) h ∧ s.stage i = if (callees i).isEmpty then 0 else h + 1

/-- Nobody is at stage zero but those that lead nowhere. -/
theorem HasStage.stage_eq_zero_iff {callees : Nat → List Nat} {s : Staging}
    {cut : Finset (Nat × Nat)} {i : Nat} (h : HasStage callees s cut i) :
    s.stage i = 0 ↔ callees i = [] := by
  obtain ⟨highest, _, hstage⟩ := h
  rw [hstage, ← List.isEmpty_iff]
  split
  case isTrue hnone => exact iff_of_true rfl hnone
  case isFalse hsome => exact iff_of_false (Nat.succ_ne_zero highest) hsome

/-- Whoever is above stage one leads to a position that is done, one stage below: the
highest one was looked at and not passed over. -/
theorem HasStage.exists_callee {callees : Nat → List Nat} {s : Staging}
    {cut : Finset (Nat × Nat)} {i k : Nat} (h : HasStage callees s cut i) (hk : 0 < k)
    (heq : s.stage i = k + 1) : ∃ d ∈ callees i, s.mark d = .done ∧ s.stage d = k := by
  obtain ⟨highest, hhighest, hstage⟩ := h
  rw [heq] at hstage
  split at hstage
  · cases hstage
  · obtain rfl : highest = k := by omega
    rcases hhighest.attained with hzero | ⟨d, hd, hcut, hmax⟩
    · omega
    · exact ⟨d, hd, hhighest.done d hd hcut, hmax⟩

/-- What is true of a walk over the first `n` positions with `under` under way and
the links in `cut` passed over. -/
structure Sound (callees : Nat → List Nat) (n : Nat) (under : List Nat)
    (cut : Finset (Nat × Nat)) (s : Staging) : Prop where
  size_marks : s.marks.size = n
  size_stages : s.stages.size = n
  underWay_iff : ∀ i, s.mark i = .underWay ↔ i ∈ under
  cut_card : cut.card = s.cycleEdges
  /-- A link that was passed over leads back to its own start. -/
  cut_cycle : ∀ e ∈ cut, e.2 ∈ callees e.1 ∧ Leads callees e.2 e.1
  cut_touched : ∀ e ∈ cut, s.mark e.1 ≠ .untouched
  hasStage : ∀ i < n, s.mark i = .done → HasStage callees s cut i

theorem sound_start (callees : Nat → List Nat) (n : Nat) :
    Sound callees n [] ∅ (start n) := by
  have hmark : ∀ i, (start n).mark i = if i < n then .untouched else .done := by
    intro i
    unfold start mark
    rw [Array.getElem?_replicate]
    split <;> rfl
  refine
    { size_marks := Array.size_replicate, size_stages := Array.size_replicate,
      underWay_iff := ?_, cut_card := Finset.card_empty,
      cut_cycle := fun e he => absurd he (Finset.notMem_empty e),
      cut_touched := fun e he => absurd he (Finset.notMem_empty e), hasStage := ?_ }
  · intro i
    rw [hmark]
    split <;> simp
  · intro i hi hdone
    rw [hmark, if_pos hi] at hdone
    cases hdone

variable {callees : Nat → List Nat} {n : Nat} {under : List Nat} {cut : Finset (Nat × Nat)}
  {s : Staging} {i : Nat}

/-- Stages that were right stay right as the walk goes on. -/
theorem HasStage.grows {s' : Staging} {cut' : Finset (Nat × Nat)} (h : HasStage callees s cut i)
    (hg : Grows s cut s' cut') (hi : s.mark i = .done) : HasStage callees s' cut' i := by
  obtain ⟨k, hk, hstage⟩ := h
  refine ⟨k, hk.grows hg (by rw [hi]; decide), ?_⟩
  rw [(hg.done i hi).2]
  exact hstage

/-- Entering an untouched position. -/
theorem Sound.enter (h : Sound callees n under cut s) (hi : i < n) (hun : s.mark i = .untouched) :
    Sound callees n (i :: under) cut (s.enter i) ∧ Grows s cut (s.enter i) cut := by
  have hmark := mark_enter (s := s) (i := i) (by rw [h.size_marks]; exact hi)
  have hgrows : Grows s cut (s.enter i) cut := by
    refine ⟨?_, ?_, Finset.Subset.refl cut, fun _ he hne => absurd he hne⟩
    · intro j hj
      have hne : j ≠ i := fun heq => by rw [heq, hun] at hj; cases hj
      rw [hmark, if_neg hne]
      exact ⟨hj, rfl⟩
    · intro j hj
      rw [hmark]
      split
      · decide
      · exact hj
  refine ⟨?_, hgrows⟩
  refine
    { size_marks := ?_, size_stages := h.size_stages, underWay_iff := ?_, cut_card := h.cut_card,
      cut_cycle := h.cut_cycle, cut_touched := fun e he => hgrows.touched e.1 (h.cut_touched e he),
      hasStage := ?_ }
  · rw [← h.size_marks]
    exact Array.size_setIfInBounds
  · intro j
    rw [hmark, List.mem_cons, ← h.underWay_iff]
    split
    · rename_i heq
      simp [heq]
    · rename_i hne
      simp [hne]
  · intro j hj hdone
    rw [hmark] at hdone
    split at hdone
    · cases hdone
    · exact (h.hasStage j hj hdone).grows hgrows hdone

/-- Leaving the innermost position under way, with its stage. -/
theorem Sound.leave (h : Sound callees n (i :: under) cut s) (hi : i < n) (hout : i ∉ under)
    {k : Nat} (hk : IsHighest s cut i (callees i) k) :
    let s' := s.leave i (if (callees i).isEmpty then 0 else k + 1)
    Sound callees n under cut s' ∧ Grows s cut s' cut ∧ s'.mark i = .done := by
  intro s'
  have hunder : s.mark i = .underWay := (h.underWay_iff i).mpr List.mem_cons_self
  have hmark : ∀ j, s'.mark j = if j = i then .done else s.mark j :=
    mark_leave (by rw [h.size_marks]; exact hi) _
  have hstage : ∀ j, s'.stage j =
      if j = i then (if (callees i).isEmpty then 0 else k + 1) else s.stage j :=
    stage_leave (by rw [h.size_stages]; exact hi) _
  have hgrows : Grows s cut s' cut := by
    refine ⟨?_, ?_, Finset.Subset.refl cut, fun _ he hne => absurd he hne⟩
    · intro j hj
      have hne : j ≠ i := fun heq => by rw [heq, hunder] at hj; cases hj
      rw [hmark, hstage, if_neg hne, if_neg hne]
      exact ⟨hj, rfl⟩
    · intro j hj
      rw [hmark]
      split
      · decide
      · exact hj
  refine ⟨?_, hgrows, by rw [hmark, if_pos rfl]⟩
  refine
    { size_marks := ?_, size_stages := ?_, underWay_iff := ?_, cut_card := h.cut_card,
      cut_cycle := h.cut_cycle, cut_touched := fun e he => hgrows.touched e.1 (h.cut_touched e he),
      hasStage := ?_ }
  · rw [← h.size_marks]
    exact Array.size_setIfInBounds
  · rw [← h.size_stages]
    exact Array.size_setIfInBounds
  · intro j
    rw [hmark]
    by_cases hji : j = i
    · subst hji
      simp [hout]
    · rw [if_neg hji, h.underWay_iff, List.mem_cons]
      simp [hji]
  · intro j hj hdone
    by_cases hji : j = i
    · subst hji
      exact ⟨k, hk.grows hgrows (by rw [hunder]; decide), by rw [hstage, if_pos rfl]⟩
    · rw [hmark, if_neg hji] at hdone
      exact (h.hasStage j hj hdone).grows hgrows hdone

/-- Passing over a link to a position under way. -/
theorem Sound.passOver (h : Sound callees n (i :: under) cut s) {d : Nat} (hd : d ∈ callees i)
    (hleads : Leads callees d i) (hnew : (i, d) ∉ cut) :
    Sound callees n (i :: under) (insert (i, d) cut)
      { s with cycleEdges := s.cycleEdges + 1 } := by
  have hunder : s.mark i = .underWay := (h.underWay_iff i).mpr List.mem_cons_self
  refine
    { size_marks := h.size_marks, size_stages := h.size_stages, underWay_iff := h.underWay_iff,
      cut_card := by rw [Finset.card_insert_of_notMem hnew, h.cut_card], cut_cycle := ?_,
      cut_touched := ?_, hasStage := ?_ }
  · intro e he
    rcases Finset.mem_insert.mp he with rfl | he
    · exact ⟨hd, hleads⟩
    · exact h.cut_cycle e he
  · intro e he
    rcases Finset.mem_insert.mp he with rfl | he
    · intro hun
      exact absurd (hunder.symm.trans hun) (by decide)
    · exact h.cut_touched e he
  · intro j hj hdone
    -- What is done is not `i`, so its own links are as before.
    have hji : j ≠ i := fun heq => by
      have hdone' : s.mark i = .done := heq ▸ hdone
      rw [hunder] at hdone'
      cases hdone'
    obtain ⟨k, hk, hstage⟩ := h.hasStage j hj hdone
    have hiff : ∀ c, (j, c) ∈ insert (i, d) cut ↔ (j, c) ∈ cut := by
      intro c
      simp [hji]
    exact ⟨k, hk.congr hiff fun _ hc => ⟨hc, rfl⟩, hstage⟩

/-! ### The walk -/

/-- Looks at one callee: the step that a visit repeats. -/
def lookAt (visit : Nat → Staging → Staging) (acc : Staging × Nat) (d : Nat) : Staging × Nat :=
  match acc.1.mark d with
  | .done => (acc.1, max acc.2 (acc.1.stage d))
  | .underWay => ({ acc.1 with cycleEdges := acc.1.cycleEdges + 1 }, acc.2)
  | .untouched => (visit d acc.1, max acc.2 ((visit d acc.1).stage d))

theorem visit_succ (callees : Nat → List Nat) (fuel i : Nat) (s : Staging) :
    visit callees (fuel + 1) i s =
      let acc := (callees i).foldl (lookAt (visit callees fuel)) (s.enter i, 0)
      acc.1.leave i (if (callees i).isEmpty then 0 else acc.2 + 1) := by
  conv_lhs => unfold visit
  rfl

/-- What a visit with enough depth does: it works out the stage of its position,
in the same way at any greater depth. -/
structure VisitsTo (callees : Nat → List Nat) (n : Nat) (under : List Nat)
    (cut : Finset (Nat × Nat)) (s : Staging) (fuel i : Nat) : Prop where
  stable : ∀ fuel' ≥ fuel, visit callees fuel' i s = visit callees fuel i s
  spec : ∃ cut', Sound callees n under cut' (visit callees fuel i s) ∧
    Grows s cut (visit callees fuel i s) cut' ∧ (visit callees fuel i s).mark i = .done

/-- Between two callees of `i`, after those in `ds`; `s₀` is the state before `i`
was entered. -/
structure Looking (callees : Nat → List Nat) (n : Nat) (under : List Nat) (i : Nat)
    (s₀ : Staging) (cut₀ : Finset (Nat × Nat)) (ds : List Nat) (cut : Finset (Nat × Nat))
    (acc : Staging × Nat) : Prop where
  sound : Sound callees n (i :: under) cut acc.1
  grows : Grows s₀ cut₀ acc.1 cut
  highest : IsHighest acc.1 cut i ds acc.2
  targets : ∀ d, (i, d) ∈ cut → d ∈ ds

theorem Looking.mark_self {s₀ : Staging} {cut₀ : Finset (Nat × Nat)} {ds : List Nat}
    {acc : Staging × Nat} (h : Looking callees n under i s₀ cut₀ ds cut acc) :
    acc.1.mark i = .underWay :=
  (h.sound.underWay_iff i).mpr List.mem_cons_self

/-- **Looking at one more callee.** The three cases are those of its mark. -/
theorem Looking.lookAt {s₀ : Staging} {cut₀ : Finset (Nat × Nat)} {ds : List Nat}
    {acc : Staging × Nat} {fuel d : Nat} (h : Looking callees n under i s₀ cut₀ ds cut acc)
    (hleads : ∀ x ∈ under, Leads callees x i) (hd : d ∈ callees i) (hnew : d ∉ ds)
    (hvisit : acc.1.mark d = .untouched → VisitsTo callees n (i :: under) cut acc.1 fuel d)
    (hun : s₀.mark i = .untouched) :
    (∀ fuel' ≥ fuel, Staging.lookAt (visit callees fuel') acc d =
      Staging.lookAt (visit callees fuel) acc d) ∧
    ∃ cut', Looking callees n under i s₀ cut₀ (ds ++ [d]) cut'
      (Staging.lookAt (visit callees fuel) acc d) := by
  have hcut : (i, d) ∉ cut := fun hmem => hnew (h.targets d hmem)
  have htargets : ∀ c, (i, c) ∈ cut → c ∈ ds ++ [d] :=
    fun c hc => List.mem_append_left _ (h.targets c hc)
  unfold Staging.lookAt
  cases hmark : acc.1.mark d with
  | done =>
      exact ⟨fun _ _ => rfl, cut, h.sound, h.grows, h.highest.concat hcut hmark, htargets⟩
  | underWay =>
      -- `d` leads to `i` because it is `i`, or farther out on the stack.
      have hback : Leads callees d i := by
        rcases List.mem_cons.mp ((h.sound.underWay_iff d).mp hmark) with rfl | hmem
        · exact Relation.ReflTransGen.refl
        · exact hleads d hmem
      have hhighest := h.highest.concat_cut hnew
      refine ⟨fun _ _ => rfl, insert (i, d) cut, h.sound.passOver hd hback hcut, ?_,
        ⟨hhighest.done, hhighest.le, hhighest.attained⟩, ?_⟩
      · refine ⟨h.grows.done, h.grows.touched,
          h.grows.cut_subset.trans (Finset.subset_insert _ _), ?_⟩
        intro e he hne
        rcases Finset.mem_insert.mp he with rfl | he
        · exact hun
        · exact h.grows.fresh e he hne
      · intro c hc
        rcases Finset.mem_insert.mp hc with heq | hc
        · rw [(Prod.mk.inj heq).2]
          exact List.mem_append_right _ (List.mem_singleton_self d)
        · exact htargets c hc
  | untouched =>
      have htouched : acc.1.mark i ≠ .untouched := by rw [h.mark_self]; decide
      obtain ⟨hstable, cut', hsound, hgrows, hdone⟩ := hvisit hmark
      refine ⟨?_, cut', hsound, h.grows.trans hgrows, ?_, ?_⟩
      · intro fuel' hfuel'
        dsimp only
        rw [hstable fuel' hfuel']
      · exact (h.highest.grows hgrows htouched).concat (mt (hgrows.mem_cut_iff htouched d).mp hcut)
          hdone
      · exact fun c hc => htargets c ((hgrows.mem_cut_iff htouched c).mp hc)

/-- Looking at the rest of the callees, one after the other. -/
theorem Looking.foldl {s₀ : Staging} {cut₀ : Finset (Nat × Nat)} {fuel : Nat} {rest : List Nat} :
    ∀ {ds : List Nat} {cut : Finset (Nat × Nat)} {acc : Staging × Nat},
      Looking callees n under i s₀ cut₀ ds cut acc → (∀ x ∈ under, Leads callees x i) →
      (∀ d ∈ rest, d ∈ callees i) → (ds ++ rest).Nodup → s₀.mark i = .untouched →
      (∀ {d : Nat} {cut : Finset (Nat × Nat)} {s : Staging}, d ∈ callees i →
        Sound callees n (i :: under) cut s → Grows s₀ cut₀ s cut → s.mark d = .untouched →
        VisitsTo callees n (i :: under) cut s fuel d) →
      (∀ fuel' ≥ fuel, rest.foldl (Staging.lookAt (visit callees fuel')) acc =
        rest.foldl (Staging.lookAt (visit callees fuel)) acc) ∧
      ∃ cut', Looking callees n under i s₀ cut₀ (ds ++ rest) cut'
        (rest.foldl (Staging.lookAt (visit callees fuel)) acc) := by
  induction rest with
  | nil =>
      intro ds cut acc h _ _ _ _ _
      refine ⟨fun _ _ => rfl, cut, ?_⟩
      rw [List.append_nil]
      exact h
  | cons d rest ih =>
      intro ds cut acc h hleads hmem hnd hun hvisit
      have hd : d ∈ callees i := hmem d List.mem_cons_self
      have hnew : d ∉ ds := by
        rw [List.nodup_append] at hnd
        exact fun hds => hnd.2.2 d hds d List.mem_cons_self rfl
      obtain ⟨hstable, cut', hlook⟩ := h.lookAt hleads hd hnew
        (fun hmark => hvisit hd h.sound h.grows hmark) hun
      have hnd' : (ds ++ [d] ++ rest).Nodup := by rwa [List.append_assoc, List.singleton_append]
      obtain ⟨hstable', cut'', hlook'⟩ := ih hlook hleads
        (fun c hc => hmem c (List.mem_cons_of_mem d hc)) hnd' hun hvisit
      refine ⟨?_, cut'', ?_⟩
      · intro fuel' hfuel'
        rw [List.foldl_cons, List.foldl_cons, hstable fuel' hfuel', hstable' fuel' hfuel']
      · rwa [List.append_assoc, List.singleton_append] at hlook'

/-- Just entered, before the first callee. -/
theorem Sound.looking_enter (h : Sound callees n under cut s) (hi : i < n)
    (hun : s.mark i = .untouched) : Looking callees n under i s cut [] cut (s.enter i, 0) := by
  obtain ⟨henter, hgrows⟩ := h.enter hi hun
  exact ⟨henter, hgrows, isHighest_nil _ _ _, fun d hd => absurd hun (h.cut_touched (i, d) hd)⟩

/-- What the visit of a callee of `i` can rely on: all that is under way leads to
the callee, and one level less of depth is enough. -/
theorem Sound.ready_callee {s₀ : Staging} {cut₀ : Finset (Nat × Nat)} {fuel d : Nat} (hi : i < n)
    (hun : s₀.mark i = .untouched) (hleads : ∀ x ∈ under, Leads callees x i)
    (hfuel : s₀.untouched n ≤ fuel + 1) (hd : d ∈ callees i)
    (h : Sound callees n (i :: under) cut s) (hgrows : Grows s₀ cut₀ s cut) :
    (∀ x ∈ i :: under, Leads callees x d) ∧ s.untouched n ≤ fuel := by
  have htouched : s.mark i ≠ .untouched := by
    rw [(h.underWay_iff i).mpr List.mem_cons_self]
    decide
  have hless := hgrows.untouched_lt hi hun htouched
  refine ⟨?_, by omega⟩
  intro x hx
  rcases List.mem_cons.mp hx with rfl | hx
  · exact Relation.ReflTransGen.single hd
  · exact (hleads x hx).tail hd

/-- **A visit is right** whenever its depth covers the untouched positions and all
that is under way leads to its position. By induction on the depth: the visits of
callees are one level deeper and have one untouched position less. -/
theorem Sound.visit (hcallees : ∀ j, (callees j).Nodup ∧ ∀ d ∈ callees j, d < n) {fuel : Nat} :
    ∀ {under : List Nat} {cut : Finset (Nat × Nat)} {s : Staging} {i : Nat},
      Sound callees n under cut s → i < n → s.mark i = .untouched →
      (∀ x ∈ under, Leads callees x i) → s.untouched n ≤ fuel →
      VisitsTo callees n under cut s fuel i := by
  induction fuel with
  | zero =>
      intro under cut s i _ hi hun _ hfuel
      exact absurd hfuel (Nat.not_le.mpr (untouched_pos hi hun))
  | succ fuel ih =>
      intro under cut s i h hi hun hleads hfuel
      have hout : i ∉ under := fun hmem => by
        have hmark := (h.underWay_iff i).mpr hmem
        rw [hun] at hmark
        cases hmark
      have hvisit : ∀ {d : Nat} {cut' : Finset (Nat × Nat)} {s' : Staging}, d ∈ callees i →
          Sound callees n (i :: under) cut' s' → Grows s cut s' cut' → s'.mark d = .untouched →
          VisitsTo callees n (i :: under) cut' s' fuel d := by
        intro d cut' s' hd hsound' hgrows' hun'
        obtain ⟨hleads', hfuel'⟩ := Sound.ready_callee hi hun hleads hfuel hd hsound' hgrows'
        exact ih hsound' ((hcallees i).2 d hd) hun' hleads' hfuel'
      obtain ⟨hstable, cut', hlook⟩ := (h.looking_enter hi hun).foldl hleads (fun d hd => hd)
        (by rw [List.nil_append]; exact (hcallees i).1) hun hvisit
      rw [List.nil_append] at hlook
      obtain ⟨hleave, hgrows', hdone⟩ := hlook.sound.leave hi hout hlook.highest
      refine ⟨?_, cut', ?_⟩
      · intro fuel' hfuel'
        obtain ⟨deeper, rfl⟩ := Nat.exists_eq_succ_of_ne_zero (n := fuel') (by omega)
        rw [visit_succ, visit_succ, hstable deeper (by omega)]
      · rw [visit_succ]
        exact ⟨hleave, hlook.grows.trans hgrows', hdone⟩

/-- A root is visited unless it is done; between roots nothing is under way. -/
theorem Sound.visitRoot (hcallees : ∀ j, (callees j).Nodup ∧ ∀ d ∈ callees j, d < n)
    (h : Sound callees n [] cut s) (hi : i < n) :
    (∀ m ≥ n, Staging.visitRoot callees m s i = Staging.visitRoot callees n s i) ∧
      ∃ cut', Sound callees n [] cut' (Staging.visitRoot callees n s i) ∧
        Grows s cut (Staging.visitRoot callees n s i) cut' ∧
        (Staging.visitRoot callees n s i).mark i = .done := by
  unfold Staging.visitRoot
  cases hmark : s.mark i with
  | untouched =>
      have hcount : s.untouched n ≤ n + 1 := by
        have hle := Finset.card_filter_le (Finset.range n) (s.mark · = .untouched)
        rw [Finset.card_range] at hle
        exact Nat.le_succ_of_le hle
      obtain ⟨hstable, hspec⟩ := h.visit hcallees hi hmark
        (fun x hx => absurd hx List.not_mem_nil) hcount
      simp only [if_true]
      exact ⟨fun m hm => hstable (m + 1) (by omega), hspec⟩
  | underWay => exact absurd ((h.underWay_iff i).mp hmark) List.not_mem_nil
  | done => exact ⟨fun _ _ => rfl, cut, h, Grows.refl s cut, hmark⟩

/-- The walk over all roots: everything that was a root is done, and more depth
would have changed nothing. -/
theorem Sound.foldl_visitRoot (hcallees : ∀ j, (callees j).Nodup ∧ ∀ d ∈ callees j, d < n)
    {roots : List Nat} :
    ∀ {cut : Finset (Nat × Nat)} {s : Staging}, Sound callees n [] cut s →
      (∀ i ∈ roots, i < n) →
      (∀ m ≥ n, roots.foldl (Staging.visitRoot callees m) s =
        roots.foldl (Staging.visitRoot callees n) s) ∧
      ∃ cut', Sound callees n [] cut' (roots.foldl (Staging.visitRoot callees n) s) ∧
        Grows s cut (roots.foldl (Staging.visitRoot callees n) s) cut' ∧
        ∀ i ∈ roots, (roots.foldl (Staging.visitRoot callees n) s).mark i = .done := by
  induction roots with
  | nil =>
      intro cut s h _
      exact ⟨fun _ _ => rfl, cut, h, Grows.refl s cut, fun i hi => absurd hi List.not_mem_nil⟩
  | cons i roots ih =>
      intro cut s h hlt
      obtain ⟨hstable, cut', hsound, hgrows, hdone⟩ :=
        h.visitRoot hcallees (hlt i List.mem_cons_self)
      obtain ⟨hstable', cut'', hsound', hgrows', hdone'⟩ :=
        ih hsound fun j hj => hlt j (List.mem_cons_of_mem i hj)
      refine ⟨?_, cut'', hsound', hgrows.trans hgrows', ?_⟩
      · intro m hm
        rw [List.foldl_cons, List.foldl_cons, hstable m hm, hstable' m hm]
      · intro j hj
        rcases List.mem_cons.mp hj with rfl | hj
        · exact (hgrows'.done j hdone).1
        · exact hdone' j hj

end CallAtlas.Staging
