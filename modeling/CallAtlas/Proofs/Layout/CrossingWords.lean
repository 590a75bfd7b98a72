import Mathlib
import CallAtlas.Proofs.Layout.Crossing
import CallAtlas.Proofs.Layout.Word

/-!
# Crossings in machine words

The reduction of crossings counts pairs of links one by one, reads heights and
writes them back, and keeps a running number from which it takes the crossings that
a slot had and to which it adds those that the slot has now. Here every such step
is checked, and no check ever fails (`reduceCrossings?_eq`).

**Nothing counted exceeds the full count.** The crossings that a slot takes part in
are some of all crossings at the same heights, before as well as after it is
mirrored, and of all crossings there are fewer than pairs of links
(`countCrossings_le`). So the running number never falls below zero, because it is
the full count at every moment (`Reduction.Exact`).
-/

namespace CallAtlas

open Word

variable {α : Type} [Coordinate α]

/-! ### The reduction with checked steps -/

/-- Do two links cross? Heights are read only where the stages overlap. -/
def StagedLink.crosses? (a b : StagedLink) (ys : Heights α) : Option Bool :=
  if max a.lowStage b.lowStage < min a.highStage b.highStage then do
    return Coordinate.less (((← ys[a.low]?) - (← ys[b.low]?)) *
      ((← ys[a.high]?) - (← ys[b.high]?))) (Coordinate.ofNat 0)
  else some false

/-- Counts on, by one if `a` crosses another link. -/
def countOne? (ys : Heights α) (a : StagedLink) (count : Nat) (b : StagedLink) : Option Nat := do
  if ← a.crosses? b ys then word? (count + 1) else some count

/-- Counts on over the links of a list that `a` crosses. -/
def countAlong? (ys : Heights α) (a : StagedLink) (those : List StagedLink) (count : Nat) :
    Option Nat :=
  those.foldlM (countOne? ys a) count

/-- Counts on over all pairs: each link with those after it. -/
def countPairs? (ys : Heights α) : List StagedLink → Nat → Option Nat
  | [], count => some count
  | a :: rest, count => do countPairs? ys rest (← countAlong? ys a rest count)

/-- The heights after the entities of a run have traded places. -/
def mirrorRun? (ys : Heights α) (run : List Nat) : Option (Heights α) := do
  let values ← run.mapM fun i => ys[i]?
  (run.zip values.reverse).foldlM (fun ys p => put? ys p.1 p.2) ys

/-- The heights after every run of a slot has been mirrored. -/
def mirrorSlot? (ys : Heights α) (slot : Slot) : Option (Heights α) := slot.foldlM mirrorRun? ys

/-- Puts the number of a link into the row of an entity. -/
def pushRow? (incident : Array (Array Nat)) (i k : Nat) : Option (Array (Array Nat)) := do
  put? incident i ((← incident[i]?).push k)

/-- Puts the number of a link into the rows of its ends. -/
def addIncident? (incident : Array (Array Nat)) (link : StagedLink × Nat) :
    Option (Array (Array Nat)) := do
  let (a, k) := link
  let incident ← pushRow? incident a.low k
  if a.high = a.low then some incident else pushRow? incident a.high k

/-- For each of `n` entities, the numbers of the links that end at it. -/
def incidentLinks? (n : Nat) (links : List StagedLink) : Option (Array (Array Nat)) :=
  links.zipIdx.foldlM addIncident? (Array.replicate n #[])

/-- The numbers of the links that end in a slot. -/
def touchedLinks? (incident : Array (Array Nat)) (slot : Slot) : Option (List Nat) := do
  let rows ← slot.flatten.mapM fun i => incident[i]?
  return dedupSorted ((rows.flatMap Array.toList).mergeSort (· ≤ ·))

/-- Marks links, or takes their marks away. -/
def setMarks? (value : Bool) (marks : Array Bool) (touched : List Nat) : Option (Array Bool) :=
  touched.foldlM (fun marks i => put? marks i value) marks

/-- Counts on, by one if link `i` crosses the given one and the pair is not passed
over. The mark is looked at only where the two differ. -/
def countNext? (ys : Heights α) (links : List StagedLink) (marks : Array Bool) (i count : Nat)
    (link : StagedLink × Nat) : Option Nat := do
  let (b, j) := link
  if j = i then some count
  else if (← marks[j]?) && j < i then some count
  else countOne? ys (← links[i]?) count b

/-- Counts on, by the links that link `i` crosses. -/
def countFrom? (ys : Heights α) (links : List StagedLink) (marks : Array Bool) (count i : Nat) :
    Option Nat :=
  links.zipIdx.foldlM (countNext? ys links marks i) count

/-- The number of crossing pairs with a link among `touched`. -/
def localCrossings? (ys : Heights α) (links : List StagedLink) (marks : Array Bool)
    (touched : List Nat) : Option Nat :=
  touched.foldlM (countFrom? ys links marks) 0

/-- The reduction before any slot has been tried. -/
def Reduction.start? (links : List StagedLink) (ys : Heights α) : Option (Reduction α) := do
  return { heights := ys
           current := ← countPairs? ys links 0
           reversals := 0
           incident := ← incidentLinks? ys.size links
           marks := Array.replicate links.length false }

/-- Tries a slot. The crossings it had are taken from the running number before
those it has now are added. -/
def Reduction.trySlot? (links : List StagedLink) (r : Reduction α) (slot : Slot) :
    Option (Reduction α) :=
  if slot.all (·.length < 2) then some r
  else do
    let touched ← touchedLinks? r.incident slot
    if touched.isEmpty then some r
    else do
      let marks ← setMarks? true r.marks touched
      let before ← localCrossings? r.heights links marks touched
      let heights ← mirrorSlot? r.heights slot
      let after ← localCrossings? heights links marks touched
      let tried ←
        if after < before then do
          some { r with
            heights
            current := ← word? ((← minus? r.current before) + after)
            reversals := ← word? (r.reversals + 1) }
        else do some { r with heights := ← mirrorSlot? heights slot }
      return { tried with marks := ← setMarks? false marks touched }

/-- Goes over all slots, at most `fuel` more times. -/
def Reduction.passes? (links : List StagedLink) (slots : List Slot) :
    Nat → Nat → Reduction α → Option (Reduction α × Nat)
  | 0, made, r => some (r, made)
  | fuel + 1, made, r =>
      if r.current = 0 then some (r, made)
      else do
        let made ← word? (made + 1)
        let next ← slots.foldlM (Reduction.trySlot? links) r
        if next.reversals = r.reversals then some (next, made)
        else Reduction.passes? links slots fuel made next

/-- Lowers the number of crossings by mirroring slots. The bound on the recursion
is not a number that is computed with. -/
def reduceCrossings? (links : List StagedLink) (ys : Heights α) (slots : List Slot)
    (maxPasses : Nat) : Option (ReductionOutcome α) := do
  let first ← Reduction.start? links ys
  let (r, passes) ← Reduction.passes? links slots (min maxPasses (first.current + 1)) 0 first
  return { heights := r.heights, before := first.current, after := r.current,
           reversals := r.reversals, passes }

/-! ### Counting -/

/-- Links between the first `n` positions. -/
def LinksWithin (n : Nat) (links : List StagedLink) : Prop :=
  ∀ a ∈ links, a.low < n ∧ a.high < n

theorem getElem?_heights {ys : Heights α} {i : Nat} (h : i < ys.size) :
    ys[i]? = some (heightOf ys i) :=
  getElem?_eq_some_getD h _

theorem StagedLink.crosses?_eq {a b : StagedLink} {ys : Heights α}
    (ha : a.low < ys.size ∧ a.high < ys.size) (hb : b.low < ys.size ∧ b.high < ys.size) :
    a.crosses? b ys = some (a.crosses b ys) := by
  unfold crosses? crosses
  rw [getElem?_heights ha.1, getElem?_heights ha.2, getElem?_heights hb.1, getElem?_heights hb.2]
  split
  · rename_i hoverlap
    rw [decide_eq_true hoverlap]
    rfl
  · rename_i hapart
    rw [decide_eq_false hapart]
    rfl

theorem countOne?_eq {ys : Heights α} {a b : StagedLink}
    (ha : a.low < ys.size ∧ a.high < ys.size) (hb : b.low < ys.size ∧ b.high < ys.size)
    {count : Nat} (hword : count + (if a.crosses b ys = true then 1 else 0) < 2 ^ 64) :
    countOne? ys a count b = some (count + if a.crosses b ys = true then 1 else 0) := by
  unfold countOne?
  rw [StagedLink.crosses?_eq ha hb]
  simp only [Option.bind_eq_bind, Option.bind_some]
  split
  · rename_i hcross
    rw [if_pos hcross] at hword
    exact word?_of_lt hword
  · rfl

theorem countAlong?_eq {ys : Heights α} {a : StagedLink} (ha : a.low < ys.size ∧ a.high < ys.size)
    {those : List StagedLink} {count : Nat} (hwithin : LinksWithin ys.size those)
    (hword : count + those.countP (a.crosses · ys) < 2 ^ 64) :
    countAlong? ys a those count = some (count + those.countP (a.crosses · ys)) :=
  foldlM_countP (fun b hb _ hword => countOne?_eq ha (hwithin b hb) hword) hword

theorem countPairs?_eq {ys : Heights α} {links : List StagedLink} :
    ∀ {count : Nat}, LinksWithin ys.size links → count + countCrossings ys links < 2 ^ 64 →
      countPairs? ys links count = some (count + countCrossings ys links) := by
  induction links with
  | nil => exact fun _ _ => rfl
  | cons a links ih =>
      intro count hwithin hword
      have hrest : LinksWithin ys.size links := fun b hb => hwithin b (List.mem_cons_of_mem a hb)
      rw [countCrossings] at hword ⊢
      rw [countPairs?, countAlong?_eq (hwithin a List.mem_cons_self) hrest (by omega)]
      simp only [Option.bind_eq_bind, Option.bind_some]
      rw [ih hrest (by omega)]
      congr 1
      omega

/-- From a link, the pairs are counted without a step that cannot be taken, if every
link has a place for a mark and the count stays in range. -/
theorem countFrom?_eq {ys : Heights α} {links : List StagedLink} {marks : Array Bool} {i : Nat}
    (hwithin : LinksWithin ys.size links) (hmarks : marks.size = links.length)
    (hi : i < links.length) {count : Nat} (hword : countFrom ys links marks count i < 2 ^ 64) :
    countFrom? ys links marks count i = some (countFrom ys links marks count i) := by
  rw [countFrom_eq] at hword ⊢
  refine foldlM_countP (fun y hy m hm => ?_) hword
  obtain ⟨b, j⟩ := y
  have hb : links[j]? = some b := List.mem_zipIdx_iff_getElem?.mp hy
  have hj : j < marks.size := hmarks ▸ (List.getElem?_eq_some_iff.mp hb).1
  have hmark : marks[j]? = some (isMarked marks j) := getElem?_eq_some_getD hj false
  have ha : links[i]? = some links[i] := List.getElem?_eq_getElem hi
  have hends : links[i].low < ys.size ∧ links[i].high < ys.size :=
    hwithin _ (List.getElem_mem hi)
  unfold countNext?
  rw [ha, Option.getD_some] at hm ⊢
  dsimp only [Option.bind_eq_bind, Option.bind_some] at hm ⊢
  by_cases hji : j = i
  · simp [isSkipped, hji]
  · rw [if_neg hji, hmark, Option.bind_some]
    have hskip : isSkipped marks i j = (isMarked marks j && decide (j < i)) := by
      simp [isSkipped, hji]
    rw [hskip] at hm ⊢
    cases hmarked : isMarked marks j && decide (j < i) with
    | true => simp
    | false =>
        simp only [hmarked, Bool.not_false, Bool.true_and] at hm ⊢
        exact countOne?_eq hends (hwithin _ (List.mem_of_getElem? hb)) hm

theorem localCrossings?_eq {ys : Heights α} {links : List StagedLink} {marks : Array Bool}
    {touched : List Nat} (hwithin : LinksWithin ys.size links) (hmarks : marks.size = links.length)
    (htouched : ∀ i ∈ touched, i < links.length)
    (hword : localCrossings ys links marks touched < 2 ^ 64) :
    localCrossings? ys links marks touched = some (localCrossings ys links marks touched) := by
  rw [localCrossings_eq_sum] at hword ⊢
  rw [← Nat.zero_add (List.sum _)] at hword ⊢
  refine foldlM_add (fun i hi m hm => ?_) hword
  rw [← countFrom_eq] at hm ⊢
  exact countFrom?_eq hwithin hmarks (htouched i hi) hm

/-- There are no more crossings than pairs of links. -/
theorem countCrossings_le (ys : Heights α) (links : List StagedLink) :
    countCrossings ys links ≤ links.length * links.length := by
  induction links with
  | nil => exact Nat.le_refl _
  | cons a links ih =>
      have hcount := List.countP_le_length (p := (a.crosses · ys)) (l := links)
      have hsquare : (links.length + 1) * (links.length + 1) =
          links.length * links.length + links.length + (links.length + 1) := by ring
      rw [countCrossings, List.length_cons, hsquare]
      omega

/-- The number of crossings is a machine word, and not the last one, where the links
fit half of one. -/
theorem countCrossings_lt {links : List StagedLink} (h : links.length < 2 ^ 32)
    (ys : Heights α) : countCrossings ys links + 1 < 2 ^ 64 := by
  have hle := countCrossings_le ys links
  have hsquare : links.length * links.length ≤ (2 ^ 32 - 1) * (2 ^ 32 - 1) :=
    Nat.mul_le_mul (by omega) (by omega)
  omega

/-! ### Mirroring -/

theorem foldlM_put? {β : Type} {entries : List (Nat × β)} :
    ∀ {as : Array β}, (∀ e ∈ entries, e.1 < as.size) →
      entries.foldlM (fun as e => put? as e.1 e.2) as = some (writeAll as entries) := by
  induction entries with
  | nil => exact fun _ => rfl
  | cons e entries ih =>
      intro as h
      rw [List.foldlM_cons, put?_of_lt (h e List.mem_cons_self), writeAll_cons]
      refine ih fun e' he' => ?_
      rw [Array.size_setIfInBounds]
      exact h e' (List.mem_cons_of_mem e he')

theorem mirrorRun?_eq {ys : Heights α} {run : List Nat} (h : ∀ i ∈ run, i < ys.size) :
    mirrorRun? ys run = some (mirrorRun ys run) := by
  unfold mirrorRun?
  rw [mapM_eq_map fun i hi => getElem?_heights (h i hi)]
  exact foldlM_put? fun e he => h e.1 (List.of_mem_zip (a := e.1) (b := e.2) he).1

theorem mirrorSlot?_eq {ys : Heights α} {slot : Slot} (hslot : slot.Proper ys.size) :
    mirrorSlot? ys slot = some (mirrorSlot ys slot) := by
  refine foldlM_eq_foldl (fun zs : Heights α => zs.size = ys.size) rfl ?_
  intro zs hsize run hrun
  refine ⟨mirrorRun?_eq fun i hi => ?_, by rw [size_mirrorRun, hsize]⟩
  rw [hsize]
  exact hslot.lt i (List.mem_flatten.mpr ⟨run, hrun, hi⟩)

/-! ### The links of a slot -/

theorem pushRow?_eq {incident : Array (Array Nat)} {i : Nat} (hi : i < incident.size) (k : Nat) :
    pushRow? incident i k = some (incident.modify i (·.push k)) := by
  unfold pushRow?
  rw [Array.getElem?_eq_getElem hi, Option.bind_eq_bind, Option.bind_some, put?_of_lt hi]
  congr 1

theorem addIncident?_eq {incident : Array (Array Nat)} {link : StagedLink × Nat}
    (hlow : link.1.low < incident.size) (hhigh : link.1.high < incident.size) :
    addIncident? incident link = some (addIncident incident link) := by
  obtain ⟨a, k⟩ := link
  unfold addIncident? addIncident
  dsimp only at hlow hhigh ⊢
  rw [pushRow?_eq hlow, Option.bind_eq_bind, Option.bind_some]
  split
  · rfl
  · exact pushRow?_eq (by rwa [Array.size_modify]) _

theorem incidentLinks?_eq {n : Nat} {links : List StagedLink} (hwithin : LinksWithin n links) :
    incidentLinks? n links = some (incidentLinks n links) := by
  refine foldlM_eq_foldl (fun incident => incident.size = n) (Array.size_replicate ..) ?_
  intro incident hsize link hlink
  obtain ⟨hlow, hhigh⟩ := hwithin link.1 (List.mem_of_getElem?
    (List.mem_zipIdx_iff_getElem?.mp hlink))
  exact ⟨addIncident?_eq (hsize ▸ hlow) (hsize ▸ hhigh), by rw [size_addIncident, hsize]⟩

theorem touchedLinks?_eq {incident : Array (Array Nat)} {slot : Slot}
    (hslot : ∀ i ∈ slot.flatten, i < incident.size) :
    touchedLinks? incident slot = some (touchedLinks incident slot) := by
  unfold touchedLinks? touchedLinks
  rw [mapM_eq_map fun i hi => getElem?_eq_some_getD (hslot i hi) #[], Option.bind_eq_bind,
    Option.bind_some, List.flatMap_map]
  rfl

theorem setMarks?_eq {value : Bool} {marks : Array Bool} {touched : List Nat}
    (htouched : ∀ i ∈ touched, i < marks.size) :
    setMarks? value marks touched = some (setMarks value marks touched) := by
  refine foldlM_eq_foldl (fun m : Array Bool => m.size = marks.size) rfl ?_
  intro m hsize i hi
  exact ⟨put?_of_lt (hsize ▸ htouched i hi) value, by rw [Array.size_setIfInBounds, hsize]⟩

/-! ### No check fails -/

namespace Reduction

/-- The links between the positions of a reduction that are few enough to count the
pairs of. -/
structure Countable (links : List StagedLink) (n : Nat) : Prop where
  within : LinksWithin n links
  length_lt : links.length < 2 ^ 32

variable {links : List StagedLink} {n before : Nat} {r : Reduction α}

theorem Countable.start?_eq {ys : Heights α} (hlinks : Countable links ys.size) :
    start? links ys = some (start links ys) := by
  have hlt := countCrossings_lt hlinks.length_lt ys
  unfold start?
  rw [countPairs?_eq hlinks.within (by omega), incidentLinks?_eq hlinks.within, Nat.zero_add]
  rfl

/-- Every link of a slot has a place for its mark. -/
theorem Exact.lt_of_mem_touchedLinks (hr : r.Exact links n before) {slot : Slot}
    (hslot : slot.Proper n) : ∀ i ∈ touchedLinks r.incident slot, i < links.length := by
  rw [hr.ready.incident_eq, hr.size]
  exact fun i => CallAtlas.lt_of_mem_touchedLinks hslot.lt

/-- The crossings that a slot takes part in are counted without a step that cannot
be taken: they are some of all crossings. -/
theorem Exact.localCrossings?_eq (hsymm : SymmetricSign α) (hlinks : Countable links n)
    (hr : r.Exact links n before) {slot : Slot} (hslot : slot.Proper n) {ys : Heights α}
    (hsize : ys.size = n) :
    localCrossings? ys links (setMarks true r.marks (touchedLinks r.incident slot))
      (touchedLinks r.incident slot) = some (slotCrossings links ys slot) := by
  have hproper : slot.Proper r.heights.size := hr.size.symm ▸ hslot
  have hle := countCrossings_eq_slotCrossings hsymm ys links slot
  have hlt := countCrossings_lt hlinks.length_lt ys
  rw [← hr.ready.localCrossings_eq hproper] at hle ⊢
  refine CallAtlas.localCrossings?_eq (hsize.symm ▸ hlinks.within) ?_
    (hr.lt_of_mem_touchedLinks hslot) (by omega)
  rw [size_setMarks, hr.ready.marks_eq, Array.size_replicate]

/-- **Trying a slot takes all of its steps.** What is kept is in range because the
running number is the full count again, and with the mirrorings kept no more than
the count at first. -/
theorem Exact.trySlot?_eq (hsymm : SymmetricSign α) (hlinks : Countable links n)
    (hbefore : before < 2 ^ 64) (hr : r.Exact links n before) {slot : Slot}
    (hslot : slot.Proper n) : r.trySlot? links slot = some (r.trySlot links slot) := by
  have hproper : slot.Proper r.heights.size := hr.size.symm ▸ hslot
  have hsize : (mirrorSlot r.heights slot).size = n := by rw [size_mirrorSlot, hr.size]
  have hrows : touchedLinks? r.incident slot = some (touchedLinks r.incident slot) :=
    touchedLinks?_eq (by
      rw [hr.ready.incident_eq, size_incidentLinks]
      exact hproper.lt)
  have hmarks : ∀ i ∈ touchedLinks r.incident slot, i < r.marks.size := by
    rw [hr.ready.marks_eq, Array.size_replicate]
    exact hr.lt_of_mem_touchedLinks hslot
  have hcleared : setMarks? false (setMarks true r.marks (touchedLinks r.incident slot))
      (touchedLinks r.incident slot) = some r.marks := by
    rw [setMarks?_eq (by rwa [size_setMarks]), hr.ready.setMarks_eq]
  have hle := hr.ready.localCrossings_le hsymm hr.counts hproper
  rw [hr.ready.localCrossings_eq hproper] at hle
  have hfalls := (hr.trySlot hsymm hslot).falls
  rw [hr.ready.trySlot_eq_ite hproper] at hfalls ⊢
  unfold trySlot?
  split
  · rfl
  · rename_i hlong
    rw [if_neg hlong] at hfalls
    rw [hrows, Option.bind_eq_bind, Option.bind_some, hr.ready.isEmpty_touchedLinks hproper]
    split
    · rfl
    · rename_i htouched
      rw [if_neg htouched] at hfalls
      rw [setMarks?_eq hmarks, mirrorSlot?_eq hproper]
      dsimp only [Option.bind_eq_bind, Option.bind_some]
      rw [hr.localCrossings?_eq hsymm hlinks hslot hr.size,
        hr.localCrossings?_eq hsymm hlinks hslot hsize, hcleared]
      dsimp only [Option.bind_some]
      split
      · rename_i hless
        rw [if_pos hless] at hfalls
        dsimp only at hfalls
        rw [minus?_of_le hle, Option.bind_some, word?_of_lt (by omega), word?_of_lt (by omega)]
        rfl
      · rw [mirrorSlot?_eq (hsize.symm ▸ hslot), Option.bind_some,
          mirrorSlot_mirrorSlot hproper]
        rfl

theorem Exact.foldlM_trySlot? (hsymm : SymmetricSign α) (hlinks : Countable links n)
    (hbefore : before < 2 ^ 64) (hr : r.Exact links n before) {slots : List Slot}
    (hslots : ∀ slot ∈ slots, slot.Proper n) :
    slots.foldlM (trySlot? links) r = some (slots.foldl (Reduction.trySlot links) r) := by
  refine foldlM_eq_foldl (fun r : Reduction α => r.Exact links n before) hr ?_
  intro r hr slot hslot
  exact ⟨hr.trySlot?_eq hsymm hlinks hbefore (hslots slot hslot),
    hr.trySlot hsymm (hslots slot hslot)⟩

/-- **Passes take all of their steps.** By induction on how many more may be made. -/
theorem Exact.passes?_eq (hsymm : SymmetricSign α) (hlinks : Countable links n)
    (hbefore : before < 2 ^ 64) {slots : List Slot} (hslots : ∀ slot ∈ slots, slot.Proper n)
    {fuel : Nat} :
    ∀ {made : Nat} {r : Reduction α}, r.Exact links n before → made + fuel < 2 ^ 64 →
      passes? links slots fuel made r = some (passes links slots fuel made r) := by
  induction fuel with
  | zero => exact fun _ _ => rfl
  | succ fuel ih =>
      intro made r hr hword
      rw [passes?, passes]
      split
      · rfl
      · rw [word?_of_lt (by omega), hr.foldlM_trySlot? hsymm hlinks hbefore hslots]
        dsimp only [Option.bind_eq_bind, Option.bind_some]
        split
        · rfl
        · exact ih (hr.foldl_trySlot hsymm hslots) (by omega)

end Reduction

/-- **A reduction takes all of its steps.** The number of passes is a machine word
because every pass but the last has removed a crossing. -/
theorem reduceCrossings?_eq (hsymm : SymmetricSign α) {links : List StagedLink} {ys : Heights α}
    (hlinks : Reduction.Countable links ys.size) {slots : List Slot}
    (hslots : ∀ slot ∈ slots, slot.Proper ys.size) (maxPasses : Nat) :
    reduceCrossings? links ys slots maxPasses =
      some (reduceCrossings links ys slots maxPasses) := by
  have hbefore := countCrossings_lt hlinks.length_lt ys
  have hpasses : Reduction.passes? links slots (min maxPasses (countCrossings ys links + 1)) 0
      (.start links ys) = some (Reduction.passes links slots
        (min maxPasses (countCrossings ys links + 1)) 0 (.start links ys)) :=
    (Reduction.exact_start links ys).passes?_eq hsymm hlinks (by omega) hslots (by omega)
  unfold reduceCrossings? reduceCrossings
  rw [hlinks.start?_eq]
  dsimp only [Option.bind_eq_bind, Option.bind_some]
  rw [Reduction.current_start, hpasses]
  rfl

end CallAtlas
