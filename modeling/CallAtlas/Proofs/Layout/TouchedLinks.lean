import Mathlib
import CallAtlas.Layout.Crossing
import CallAtlas.Proofs.Graph.Sorting

/-!
# The links of a slot

When a slot is tried, its links are looked up in a table made beforehand, sorted and
freed of repeats, and marked in a second table; then two loops go over all links for
each of them and pass over the pairs that the marks say have been counted. This module
says what these loops come to.

**The tables.** The row of an entity has the numbers of the links that end at it, in
order, and each of them once, also where both ends are that entity
(`getElem?_incidentLinks`). So a slot is given the numbers of exactly the links that
touch it, in order (`touchedLinks_eq`). While these are marked, a link is marked if it
touches the slot (`isMarked_setMarks_zipIdx`), and afterwards no link is
(`setMarks_false_setMarks_true`).

**The count** (`localCrossings_eq`). Every pair with a link that touches the slot is
counted once: among the links that touch it, from the earlier one; and from the one
that touches it if the other does not. That is the number of crossing pairs among the
links of the slot, and between them and the others.
-/

namespace CallAtlas

variable {α : Type} [Coordinate α]

/-! ### Rows of links -/

/-- Does the link end at the entity? -/
def StagedLink.endsAt (a : StagedLink) (i : Nat) : Bool := a.low == i || a.high == i

/-- Does the link end at an entity of the slot? -/
def StagedLink.touches (a : StagedLink) (slot : Slot) : Bool := slot.flatten.any a.endsAt

theorem StagedLink.touches_iff {a : StagedLink} {slot : Slot} :
    a.touches slot = true ↔ a.low ∈ slot.flatten ∨ a.high ∈ slot.flatten := by
  unfold touches endsAt
  simp only [List.any_eq_true, Bool.or_eq_true, beq_iff_eq]
  constructor
  · rintro ⟨i, hi, rfl | rfl⟩
    · exact Or.inl hi
    · exact Or.inr hi
  · rintro (h | h)
    · exact ⟨a.low, h, Or.inl rfl⟩
    · exact ⟨a.high, h, Or.inr rfl⟩

@[simp] theorem size_addIncident (incident : Array (Array Nat)) (link : StagedLink × Nat) :
    (addIncident incident link).size = incident.size := by
  unfold addIncident
  dsimp only
  split <;> simp

/-- A link goes to the end of the rows of its ends, and into no row twice. -/
theorem getElem?_addIncident (incident : Array (Array Nat)) (a : StagedLink) (k i : Nat) :
    (addIncident incident (a, k))[i]? =
      incident[i]?.map fun row => if a.endsAt i then row.push k else row := by
  unfold addIncident StagedLink.endsAt
  dsimp only
  split
  · rename_i hloop
    rw [Array.getElem?_modify, hloop, Bool.or_self]
    by_cases hlow : a.low = i
    · simp [hlow]
    · simp [hlow]
  · rename_i hends
    rw [Array.getElem?_modify, Array.getElem?_modify]
    by_cases hlow : a.low = i
    · have hhigh : a.high ≠ i := fun h => hends (h.trans hlow.symm)
      simp [hlow, hhigh]
    · by_cases hhigh : a.high = i
      · simp [hlow, hhigh]
      · simp [hlow, hhigh]

theorem getElem?_foldl_addIncident (links : List (StagedLink × Nat)) (i : Nat) :
    ∀ incident : Array (Array Nat), (links.foldl addIncident incident)[i]? =
      incident[i]?.map fun row => row ++ ((links.filter (·.1.endsAt i)).map (·.2)).toArray := by
  induction links with
  | nil => simp
  | cons link links ih =>
      intro incident
      obtain ⟨a, k⟩ := link
      rw [List.foldl_cons, ih, getElem?_addIncident, Option.map_map]
      congr 1
      funext row
      by_cases hend : a.endsAt i
      · simp [hend]
      · simp [hend]

/-- **The row of an entity** has the numbers of the links that end at it, in order. -/
theorem getElem?_incidentLinks {n i : Nat} (hi : i < n) (links : List StagedLink) :
    (incidentLinks n links)[i]? =
      some ((links.zipIdx.filter (·.1.endsAt i)).map (·.2)).toArray := by
  unfold incidentLinks
  rw [getElem?_foldl_addIncident, Array.getElem?_replicate, if_pos hi, Option.map_some,
    Array.empty_append]

@[simp] theorem size_incidentLinks (n : Nat) (links : List StagedLink) :
    (incidentLinks n links).size = n := by
  unfold incidentLinks
  refine List.foldlRecOn _ _ (motive := fun incident : Array (Array Nat) => incident.size = n)
    (Array.size_replicate ..) fun incident hsize link _ => ?_
  rw [size_addIncident, hsize]

/-! ### The links of a slot, in order -/

/-- The links that a test picks out, from their list with numbers. -/
theorem filter_eq_map_zipIdx (p : StagedLink → Bool) (links : List StagedLink) (k : Nat) :
    links.filter p = ((links.zipIdx k).filter (p ·.1)).map (·.1) := by
  conv_lhs => rw [← List.zipIdx_map_fst k links]
  exact List.filter_map

/-- The numbers of the links that a test picks out. -/
def numbersOf (p : StagedLink → Bool) (links : List StagedLink) : List Nat :=
  (links.zipIdx.filter (p ·.1)).map (·.2)

theorem mem_numbersOf {p : StagedLink → Bool} {links : List StagedLink} {k : Nat} :
    k ∈ numbersOf p links ↔ ∃ a, links[k]? = some a ∧ p a = true := by
  unfold numbersOf
  simp [List.mem_zipIdx_iff_getElem?]

theorem length_numbersOf (p : StagedLink → Bool) (links : List StagedLink) :
    (numbersOf p links).length = (links.filter p).length := by
  rw [filter_eq_map_zipIdx p links 0, numbersOf, List.length_map, List.length_map]

theorem pairwise_numbersOf (p : StagedLink → Bool) (links : List StagedLink) :
    (numbersOf p links).Pairwise (· < ·) := by
  have hall : (links.zipIdx.map (·.2)).Pairwise (· < ·) := by
    rw [List.zipIdx_map_snd]
    exact List.pairwise_lt_range'
  exact hall.sublist (List.filter_sublist.map _)

/-- **A slot is given the numbers of the links that touch it**, in order and each of
them once, although a link may stand in the rows of two of its entities. -/
theorem touchedLinks_eq {n : Nat} {slot : Slot} (hslot : ∀ i ∈ slot.flatten, i < n)
    (links : List StagedLink) :
    touchedLinks (incidentLinks n links) slot = numbersOf (·.touches slot) links := by
  have hmem : ∀ k, k ∈ touchedLinks (incidentLinks n links) slot ↔
      k ∈ numbersOf (·.touches slot) links := by
    intro k
    unfold touchedLinks
    rw [mem_dedupSorted, List.mem_mergeSort, List.mem_flatMap, mem_numbersOf]
    simp only [StagedLink.touches, List.any_eq_true]
    constructor
    · rintro ⟨i, hi, hk⟩
      rw [getElem?_incidentLinks (hslot i hi), Option.getD_some, List.toList_toArray] at hk
      obtain ⟨a, ha, hend⟩ := (mem_numbersOf (p := (·.endsAt i))).mp hk
      exact ⟨a, ha, i, hi, hend⟩
    · rintro ⟨a, ha, i, hi, hend⟩
      refine ⟨i, hi, ?_⟩
      rw [getElem?_incidentLinks (hslot i hi), Option.getD_some, List.toList_toArray]
      exact (mem_numbersOf (p := (·.endsAt i))).mpr ⟨a, ha, hend⟩
  have hsorted : (touchedLinks (incidentLinks n links) slot).Pairwise (· < ·) := by
    apply pairwise_dedupSorted
    exact List.pairwise_mergeSort' (· ≤ ·) _
  have hperm := (List.perm_ext_iff_of_nodup (hsorted.imp Nat.ne_of_lt)
    ((pairwise_numbersOf (·.touches slot) links).imp Nat.ne_of_lt)).mpr hmem
  exact hperm.eq_of_pairwise (fun a b _ _ hab hba => absurd hab (Nat.lt_asymm hba)) hsorted
    (pairwise_numbersOf _ links)

theorem lt_of_mem_touchedLinks {n : Nat} {slot : Slot} (hslot : ∀ i ∈ slot.flatten, i < n)
    {links : List StagedLink} {k : Nat} (hk : k ∈ touchedLinks (incidentLinks n links) slot) :
    k < links.length := by
  rw [touchedLinks_eq hslot] at hk
  obtain ⟨a, ha, _⟩ := mem_numbersOf.mp hk
  exact (List.getElem?_eq_some_iff.mp ha).1

theorem isEmpty_touchedLinks {n : Nat} {slot : Slot} (hslot : ∀ i ∈ slot.flatten, i < n)
    (links : List StagedLink) :
    (touchedLinks (incidentLinks n links) slot).isEmpty =
      (links.filter (·.touches slot)).isEmpty := by
  rw [touchedLinks_eq hslot, Bool.eq_iff_iff, List.isEmpty_iff_length_eq_zero,
    List.isEmpty_iff_length_eq_zero, length_numbersOf]

/-! ### Marks -/

@[simp] theorem size_setMarks (value : Bool) (marks : Array Bool) (touched : List Nat) :
    (setMarks value marks touched).size = marks.size := by
  unfold setMarks
  induction touched generalizing marks with
  | nil => rfl
  | cons k touched ih => rw [List.foldl_cons, ih, Array.size_setIfInBounds]

theorem getElem?_setMarks {value : Bool} {marks : Array Bool} {touched : List Nat} {i : Nat}
    (hi : i < marks.size) :
    (setMarks value marks touched)[i]? = if i ∈ touched then some value else marks[i]? := by
  unfold setMarks
  induction touched generalizing marks with
  | nil => rfl
  | cons k touched ih =>
      rw [List.foldl_cons, ih (by rwa [Array.size_setIfInBounds])]
      by_cases hik : i = k
      · subst hik
        simp [hi]
      · rw [Array.getElem?_setIfInBounds_ne (Ne.symm hik)]
        simp [hik]

/-- Where no link was marked, none is marked after the marks have been taken away
again. -/
theorem setMarks_false_setMarks_true (n : Nat) (touched : List Nat) :
    setMarks false (setMarks true (Array.replicate n false) touched) touched =
      Array.replicate n false := by
  refine Array.ext_getElem? fun i => ?_
  by_cases hi : i < n
  · rw [getElem?_setMarks (by simpa using hi), getElem?_setMarks (by simpa using hi)]
    simp [hi]
  · rw [Array.getElem?_eq_none (by simpa using hi), Array.getElem?_eq_none (by simpa using hi)]

/-- While the links that a test picks out are marked, a link is marked if it passes
the test. -/
theorem isMarked_setMarks {p : StagedLink → Bool} {links : List StagedLink} {b : StagedLink}
    {j : Nat} (hb : links[j]? = some b) :
    isMarked (setMarks true (Array.replicate links.length false) (numbersOf p links)) j = p b := by
  have hj : j < links.length := (List.getElem?_eq_some_iff.mp hb).1
  unfold isMarked
  rw [getElem?_setMarks (by simpa using hj)]
  simp only [mem_numbersOf, hb, Option.some.injEq, exists_eq_left']
  cases p b with
  | true => rfl
  | false => simp [hj]

/-! ### Pairs -/

/-- The number of crossings between links of two lists. -/
def crossingsBetween (ys : Heights α) (these those : List StagedLink) : Nat :=
  (these.map fun a => those.countP (a.crosses · ys)).sum

/-- The number of crossing pairs with a link in `these`, when `others` are the
remaining links. -/
def crossingsWith (ys : Heights α) (these others : List StagedLink) : Nat :=
  countCrossings ys these + crossingsBetween ys these others

theorem crossingsBetween_cons (ys : Heights α) (a : StagedLink) (these those : List StagedLink) :
    crossingsBetween ys (a :: these) those =
      those.countP (a.crosses · ys) + crossingsBetween ys these those := by
  unfold crossingsBetween
  rw [List.map_cons, List.sum_cons]

theorem crossingsWith_cons (ys : Heights α) (a : StagedLink) (these others : List StagedLink) :
    crossingsWith ys (a :: these) others =
      (these ++ others).countP (a.crosses · ys) + crossingsWith ys these others := by
  unfold crossingsWith
  rw [countCrossings, crossingsBetween_cons, List.countP_append]
  omega

theorem crossingsWith_cons_right (ys : Heights α) (a : StagedLink)
    (these others : List StagedLink) :
    crossingsWith ys these (a :: others) =
      (these.map fun b => if b.crosses a ys then 1 else 0).sum + crossingsWith ys these others := by
  have hbetween : crossingsBetween ys these (a :: others) =
      (these.map fun b => if b.crosses a ys then 1 else 0).sum +
        crossingsBetween ys these others := by
    unfold crossingsBetween
    rw [← List.sum_map_add]
    refine congrArg List.sum (List.map_congr_left fun b _ => ?_)
    rw [List.countP_cons, Nat.add_comm]
  unfold crossingsWith
  rw [hbetween]
  omega

/-! ### What the loops count -/

theorem foldl_count {β : Type} (skip count : β → Bool) (bs : List β) :
    ∀ m : Nat, bs.foldl (fun m b => if skip b then m else if count b then m + 1 else m) m =
      m + bs.countP fun b => !skip b && count b := by
  induction bs with
  | nil => exact fun _ => rfl
  | cons b bs ih =>
      intro m
      rw [List.foldl_cons, ih, List.countP_cons]
      cases skip b <;> cases count b <;> simp [Nat.add_assoc, Nat.add_comm 1]

/-- The pairs that are passed over when the links that `link i` crosses are counted: a
link does not pair with itself, and of two marked links the earlier one counts. -/
def isSkipped (marks : Array Bool) (i j : Nat) : Bool := j = i || (isMarked marks j && j < i)

theorem countFrom_eq (ys : Heights α) (links : List StagedLink) (marks : Array Bool)
    (count i : Nat) :
    countFrom ys links marks count i = count + links.zipIdx.countP fun y =>
      !isSkipped marks i y.2 && ((links[i]?).getD default).crosses y.1 ys :=
  foldl_count (fun y : StagedLink × Nat => isSkipped marks i y.2)
    (fun y => ((links[i]?).getD default).crosses y.1 ys) links.zipIdx count

theorem localCrossings_eq_sum (ys : Heights α) (links : List StagedLink) (marks : Array Bool)
    (touched : List Nat) :
    localCrossings ys links marks touched = (touched.map fun i => links.zipIdx.countP fun y =>
      !isSkipped marks i y.2 && ((links[i]?).getD default).crosses y.1 ys).sum := by
  unfold localCrossings
  rw [List.sum_eq_foldl, List.foldl_map]
  congr 1
  funext count i
  exact countFrom_eq ys links marks count i

/-- The pairs counted from one link among links with numbers, those that pass a test
being marked. -/
def pairsFrom (ys : Heights α) (p : StagedLink → Bool) (numbered : List (StagedLink × Nat))
    (x : StagedLink × Nat) : Nat :=
  numbered.countP fun y => !(y.2 = x.2 || (p y.1 && y.2 < x.2)) && x.1.crosses y.1 ys

/-- From the first link, the pairs with all links after it are counted. -/
theorem pairsFrom_first (ys : Heights α) (p : StagedLink → Bool) (a : StagedLink)
    (links : List StagedLink) (k : Nat) :
    pairsFrom ys p ((a, k) :: links.zipIdx (k + 1)) (a, k) = links.countP (a.crosses · ys) := by
  have hlater : ∀ y ∈ links.zipIdx (k + 1),
      ((!(y.2 = k || (p y.1 && y.2 < k)) && a.crosses y.1 ys) = true ↔
        a.crosses y.1 ys = true) := by
    intro y hy
    have hlt : k < y.2 := List.le_snd_of_mem_zipIdx hy
    simp [Nat.ne_of_gt hlt, Nat.lt_asymm hlt]
  have hfst : links.countP (a.crosses · ys) =
      (links.zipIdx (k + 1)).countP fun y => a.crosses y.1 ys := by
    conv_lhs => rw [← List.zipIdx_map_fst (k + 1) links, List.countP_map]
    rfl
  unfold pairsFrom
  rw [List.countP_cons, List.countP_congr hlater, hfst]
  simp

/-- From a later link, the pair with the first one is counted unless that is marked. -/
theorem pairsFrom_later (ys : Heights α) (p : StagedLink → Bool) (a : StagedLink)
    (numbered : List (StagedLink × Nat)) {k : Nat} {x : StagedLink × Nat} (hx : k < x.2) :
    pairsFrom ys p ((a, k) :: numbered) x =
      (if !p a && x.1.crosses a ys then 1 else 0) + pairsFrom ys p numbered x := by
  unfold pairsFrom
  rw [List.countP_cons, Nat.add_comm]
  simp [hx, Nat.ne_of_lt hx]

/-- **Every pair is counted once.** By induction on the links: the first one pairs with
all after it if it is marked, and if not, then with the marked ones after it, which
count the pair from their side. -/
theorem sum_pairsFrom (ys : Heights α) (p : StagedLink → Bool) (links : List StagedLink) :
    ∀ k : Nat, (((links.zipIdx k).filter (p ·.1)).map (pairsFrom ys p (links.zipIdx k))).sum =
      crossingsWith ys (links.filter p) (links.filter (!p ·)) := by
  induction links with
  | nil => exact fun _ => rfl
  | cons a links ih =>
      intro k
      have hlater : (((links.zipIdx (k + 1)).filter (p ·.1)).map
            (pairsFrom ys p ((a, k) :: links.zipIdx (k + 1)))).sum =
          ((links.filter p).map fun b => if !p a && b.crosses a ys then 1 else 0).sum +
            crossingsWith ys (links.filter p) (links.filter (!p ·)) := by
        rw [← ih (k + 1), filter_eq_map_zipIdx p links (k + 1), List.map_map,
          ← List.sum_map_add]
        refine congrArg List.sum (List.map_congr_left fun x hx => ?_)
        exact pairsFrom_later ys p a _ (List.le_snd_of_mem_zipIdx (List.mem_filter.mp hx).1)
      rw [List.zipIdx_cons]
      cases ha : p a with
      | true =>
          have hmarked : ((a, k) :: links.zipIdx (k + 1)).filter (p ·.1) =
              (a, k) :: (links.zipIdx (k + 1)).filter (p ·.1) := List.filter_cons_of_pos ha
          have hall : links.countP (a.crosses · ys) =
              (links.filter p ++ links.filter (!p ·)).countP (a.crosses · ys) :=
            (List.filter_append_perm p links).symm.countP_eq _
          rw [hmarked, List.map_cons, List.sum_cons, hlater, pairsFrom_first,
            List.filter_cons_of_pos ha, List.filter_cons_of_neg (by simp [ha]),
            crossingsWith_cons, hall]
          simp [ha]
      | false =>
          rw [List.filter_cons_of_neg (by simp [ha]), hlater, List.filter_cons_of_neg (by simp [ha]),
            List.filter_cons_of_pos (by simp [ha]), crossingsWith_cons_right]
          simp [ha]

/-- **The loops over a slot count its crossings**: the crossing pairs among the links
that touch it, and those of one of them and another link. -/
theorem localCrossings_eq {n : Nat} {slot : Slot} (hslot : ∀ i ∈ slot.flatten, i < n)
    (links : List StagedLink) (ys : Heights α) :
    let touched := touchedLinks (incidentLinks n links) slot
    localCrossings ys links (setMarks true (Array.replicate links.length false) touched) touched =
      crossingsWith ys (links.filter (·.touches slot)) (links.filter (!·.touches slot)) := by
  intro touched
  have htouched : touched = numbersOf (·.touches slot) links := touchedLinks_eq hslot links
  have hnumbers : ∀ f : Nat → Nat, (numbersOf (·.touches slot) links).map f =
      (links.zipIdx.filter (·.1.touches slot)).map fun x => f x.2 := fun f => List.map_map
  rw [htouched, localCrossings_eq_sum, ← sum_pairsFrom ys (·.touches slot) links 0, hnumbers]
  refine congrArg List.sum (List.map_congr_left fun x hx => List.countP_congr fun y hy => ?_)
  have hx : links[x.2]? = some x.1 :=
    List.mem_zipIdx_iff_getElem?.mp (List.mem_filter.mp hx).1
  have hy : links[y.2]? = some y.1 := List.mem_zipIdx_iff_getElem?.mp hy
  unfold isSkipped
  rw [isMarked_setMarks hy, hx, Option.getD_some]

end CallAtlas
