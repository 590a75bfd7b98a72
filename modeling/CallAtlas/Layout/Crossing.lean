import CallAtlas.Graph.Basic
import CallAtlas.Layout.Coordinate

/-!
# Crossings

Two links **cross** when their stage intervals overlap and their ends are
vertically inverted: the one that starts higher at its lower stage ends lower at
its higher stage. That is a proxy for crossings in the drawing which is cheap
enough to be evaluated often.

A reduction tries to mirror *slots*, the runs of entities of one group and stage,
and keeps a mirroring only if it strictly lowers the number of crossings. It
recounts only the pairs with a link that ends in the slot. Which links these are is
looked up in a table made beforehand, and as long as the slot is tried they are
**marked**, so that a pair of them is not counted from both sides.
-/

namespace CallAtlas

variable {α : Type} [Coordinate α]

/-- A link by its two ends, the one at the lower stage first. -/
structure StagedLink where
  low : Nat
  high : Nat
  lowStage : Nat
  highStage : Nat
deriving DecidableEq, Repr, Inhabited

/-- A link between two positions whose stages are given. A link within one stage
keeps its direction and can cross nothing. -/
def StagedLink.make (source target sourceStage targetStage : Nat) : StagedLink :=
  if sourceStage ≤ targetStage then
    { low := source, high := target, lowStage := sourceStage, highStage := targetStage }
  else { low := target, high := source, lowStage := targetStage, highStage := sourceStage }

/-- The vertical position of each entity. -/
abbrev Heights (α : Type) := Array α

/-- The vertical position of an entity. -/
def heightOf (ys : Heights α) (i : Nat) : α := (ys[i]?).getD (Coordinate.ofNat 0)

/-- Do two links cross? -/
def StagedLink.crosses (a b : StagedLink) (ys : Heights α) : Bool :=
  max a.lowStage b.lowStage < min a.highStage b.highStage &&
    Coordinate.less ((heightOf ys a.low - heightOf ys b.low) *
      (heightOf ys a.high - heightOf ys b.high)) (Coordinate.ofNat 0)

/-- The number of crossing pairs. -/
def countCrossings (ys : Heights α) : List StagedLink → Nat
  | [] => 0
  | a :: rest => rest.countP (a.crosses · ys) + countCrossings ys rest

/-- The entities of one group and stage, one run per column, from top to
bottom. -/
abbrev Slot := List (List Nat)

/-! ### The links of a slot -/

/-- Puts the number of a link into the rows of both its ends; into one row only if it
joins an entity to itself. -/
def addIncident (incident : Array (Array Nat)) (link : StagedLink × Nat) : Array (Array Nat) :=
  let (a, i) := link
  let incident := incident.modify a.low (·.push i)
  if a.high = a.low then incident else incident.modify a.high (·.push i)

/-- For each of `n` entities, the numbers of the links that end at it. -/
def incidentLinks (n : Nat) (links : List StagedLink) : Array (Array Nat) :=
  links.zipIdx.foldl addIncident (Array.replicate n #[])

/-- The numbers of the links that end in a slot, in order and each of them once. -/
def touchedLinks (incident : Array (Array Nat)) (slot : Slot) : List Nat :=
  let found := slot.flatten.flatMap fun i => ((incident[i]?).getD #[]).toList
  dedupSorted (found.mergeSort (· ≤ ·))

/-- Marks links, or takes their marks away. -/
def setMarks (value : Bool) (marks : Array Bool) (touched : List Nat) : Array Bool :=
  touched.foldl (fun marks i => marks.setIfInBounds i value) marks

/-- Is a link marked? -/
def isMarked (marks : Array Bool) (i : Nat) : Bool := (marks[i]?).getD false

/-- Counts on, by the links that link `i` crosses. Two marked links are counted from
the earlier one. -/
def countFrom (ys : Heights α) (links : List StagedLink) (marks : Array Bool) (count i : Nat) :
    Nat :=
  let a := (links[i]?).getD default
  links.zipIdx.foldl (fun count (b, j) =>
    if j = i || (isMarked marks j && j < i) then count
    else if a.crosses b ys then count + 1
    else count) count

/-- The number of crossing pairs with a link among `touched`, all of which are marked. -/
def localCrossings (ys : Heights α) (links : List StagedLink) (marks : Array Bool)
    (touched : List Nat) : Nat :=
  touched.foldl (countFrom ys links marks) 0

/-! ### Mirroring slots -/

/-- The heights after the entities of a run have traded places: the first takes
the last one's height and so on. -/
def mirrorRun (ys : Heights α) (run : List Nat) : Heights α :=
  (run.zip (run.map (heightOf ys)).reverse).foldl (fun ys (i, y) => ys.setIfInBounds i y) ys

/-- The heights after every run of a slot has been mirrored. -/
def mirrorSlot (ys : Heights α) (slot : Slot) : Heights α := slot.foldl mirrorRun ys

/-- What a reduction has come to. -/
structure Reduction (α : Type) where
  heights : Heights α
  /-- Crossings at present. -/
  current : Nat
  /-- Mirrorings kept. -/
  reversals : Nat
  /-- By entity, the links that end at it. -/
  incident : Array (Array Nat)
  /-- The links of the slot at hand; none between two slots. -/
  marks : Array Bool
deriving Repr, Inhabited

/-- The reduction before any slot has been tried. -/
def Reduction.start (links : List StagedLink) (ys : Heights α) : Reduction α where
  heights := ys
  current := countCrossings ys links
  reversals := 0
  incident := incidentLinks ys.size links
  marks := Array.replicate links.length false

/-- Mirrors a slot, and mirrors it back unless that lowered the number of
crossings. A slot whose runs have one entity each, or that no link touches, is
passed over. -/
def Reduction.trySlot (links : List StagedLink) (r : Reduction α) (slot : Slot) : Reduction α :=
  if slot.all (·.length < 2) then r
  else
    let touched := touchedLinks r.incident slot
    if touched.isEmpty then r
    else
      let marks := setMarks true r.marks touched
      let before := localCrossings r.heights links marks touched
      let heights := mirrorSlot r.heights slot
      let after := localCrossings heights links marks touched
      let tried :=
        if after < before then
          { r with heights, current := r.current - before + after, reversals := r.reversals + 1 }
        else { r with heights := mirrorSlot heights slot }
      { tried with marks := setMarks false marks touched }

/-- What came out of a whole reduction. -/
structure ReductionOutcome (α : Type) where
  heights : Heights α
  before : Nat
  after : Nat
  reversals : Nat
  passes : Nat
deriving Repr, Inhabited

/-- Goes over all slots, at most `fuel` more times, until a pass changes nothing
or no crossing is left. Returns the number of passes made. -/
def Reduction.passes (links : List StagedLink) (slots : List Slot) :
    Nat → Nat → Reduction α → Reduction α × Nat
  | 0, made, r => (r, made)
  | fuel + 1, made, r =>
      if r.current = 0 then (r, made)
      else
        let next := slots.foldl (Reduction.trySlot links) r
        if next.reversals = r.reversals then (next, made + 1)
        else Reduction.passes links slots fuel (made + 1) next

/-- Lowers the number of crossings by mirroring slots, in at most `maxPasses`
passes over them. Every kept mirroring removes a crossing, so more passes than
crossings are never made. -/
def reduceCrossings (links : List StagedLink) (ys : Heights α) (slots : List Slot)
    (maxPasses : Nat) : ReductionOutcome α :=
  let first := Reduction.start links ys
  let (r, passes) := Reduction.passes links slots (min maxPasses (first.current + 1)) 0 first
  { heights := r.heights, before := first.current, after := r.current, reversals := r.reversals,
    passes }

end CallAtlas
