import Mathlib.Data.List.TakeWhile
import CallAtlas.Proofs.Path

/-!
# Group keys

A group key is a text, but it can be read back: **its segments are the first directories
that are not skipped, as many as the depth says** (`Path.segments_groupOf`). This also holds
of the key of the root, which has no segments, and so no other group can be mistaken for it.

Two files are therefore in one group exactly if they share these directories
(`Path.groupOf_eq_iff`), and whatever shares more of them shares fewer.
-/

namespace CallAtlas.Path

/-- The directories that a path leads through. -/
def directories (path : String) : List String := (segments path).dropLast

/-- The directories that count: those from the first one on that is not skipped. -/
def countedDirectories (skipped : List String) (path : String) : List String :=
  (directories path).dropWhile (skipped.contains ·)

/-- The directories of a path, in two parts: the leading ones that are skipped, and the
others. -/
structure SkipsTo (skipped : List String) (path : String) (lead rest : List String) : Prop where
  directories_eq : directories path = lead ++ rest
  mem_skipped : ∀ directory ∈ lead, directory ∈ skipped
  /-- Nothing is skipped after the first directory that is not. -/
  not_mem_skipped : ∀ directory, rest.head? = some directory → directory ∉ skipped

variable {skipped : List String} {path : String}

/-! ### Directories -/

theorem directories_append {name : String} (dir : String) (h : IsSegment name) :
    directories (dir ++ "/" ++ name) = segments dir := by
  unfold directories
  rw [segments_append, segments_of_isSegment h, List.dropLast_concat]

theorem directories_of_isSegment {name : String} (h : IsSegment name) : directories name = [] := by
  unfold directories
  rw [segments_of_isSegment h]
  rfl

theorem isSegment_of_mem_countedDirectories {directory : String}
    (h : directory ∈ countedDirectories skipped path) : IsSegment directory :=
  isSegment_of_mem_segments ((List.dropLast_sublist _).mem ((List.dropWhile_sublist _).mem h))

theorem skipsTo_countedDirectories (skipped : List String) (path : String) :
    SkipsTo skipped path ((directories path).takeWhile (skipped.contains ·))
      (countedDirectories skipped path) where
  directories_eq := List.takeWhile_append_dropWhile.symm
  mem_skipped := by
    intro directory h
    simpa using List.mem_takeWhile_imp h
  not_mem_skipped := by
    intro directory h
    have hnot := List.head?_dropWhile_not (skipped.contains ·) (directories path)
    unfold countedDirectories at h
    rw [h] at hnot
    simpa using hnot

/-- A directory in front that is skipped counts for nothing. -/
theorem countedDirectories_append {directory : String} (hskipped : directory ∈ skipped)
    (hsegment : IsSegment directory) (path : String) :
    countedDirectories skipped (directory ++ "/" ++ path) = countedDirectories skipped path := by
  have hcontains : skipped.contains directory = true := List.contains_iff_mem.mpr hskipped
  unfold countedDirectories directories
  rw [segments_append, segments_of_isSegment hsegment, List.singleton_append]
  cases segments path with
  | nil => rfl
  | cons piece pieces => rw [List.dropLast_cons_cons, List.dropWhile_cons_of_pos hcontains]

/-! ### Reading a key back -/

/-- The key of a group from its directories. -/
def groupKey (directories : List String) : String :=
  if directories.isEmpty then rootGroup else "/".intercalate directories

theorem groupOf_eq_groupKey (skipped : List String) (path : String) (depth : Nat) :
    groupOf path depth skipped = groupKey ((countedDirectories skipped path).take depth) := by
  change (if (countedDirectories skipped path).isEmpty || depth == 0 then _ else _) = _
  unfold groupKey
  congr 1
  simp [List.take_eq_nil_iff, or_comm]

/-- The key of the root has no segments, and any other key has those it was made of. -/
theorem segments_groupKey {directories : List String} (h : ∀ d ∈ directories, IsSegment d) :
    segments (groupKey directories) = directories := by
  cases directories with
  | nil => decide +kernel
  | cons directory directories => exact segments_intercalate h

/-- **The segments of a group key are the first directories that count.** -/
theorem segments_groupOf (skipped : List String) (path : String) (depth : Nat) :
    segments (groupOf path depth skipped) = (countedDirectories skipped path).take depth := by
  rw [groupOf_eq_groupKey, segments_groupKey]
  intro directory h
  exact isSegment_of_mem_countedDirectories (List.mem_of_mem_take h)

/-- Two files are in one group exactly if they share the directories that count, up to the
depth. -/
theorem groupOf_eq_iff {path' : String} {depth : Nat} :
    groupOf path depth skipped = groupOf path' depth skipped ↔
      (countedDirectories skipped path).take depth =
        (countedDirectories skipped path').take depth := by
  constructor
  · intro h
    rw [← segments_groupOf, h, segments_groupOf]
  · intro h
    rw [groupOf_eq_groupKey, h, ← groupOf_eq_groupKey]

/-- The file's own name counts for nothing. -/
theorem groupOf_eq_of_directories_eq {path' : String} {depth : Nat}
    (h : directories path = directories path') :
    groupOf path depth skipped = groupOf path' depth skipped := by
  rw [groupOf_eq_iff, countedDirectories, countedDirectories, h]

theorem groupOf_eq_rootGroup_iff {depth : Nat} :
    groupOf path depth skipped = rootGroup ↔
      depth = 0 ∨ countedDirectories skipped path = [] := by
  rw [← List.take_eq_nil_iff, ← segments_groupOf]
  constructor
  · intro h
    rw [h]
    decide +kernel
  · intro h
    rw [segments_groupOf] at h
    rw [groupOf_eq_groupKey, h]
    rfl

/-- **Groups are directories, and a greater depth refines them**, whatever is skipped:

* files in one directory are in one group, however the way to the directory is written;
* files that share a group at some depth share one at every smaller depth;
* the leading directories that are skipped count for nothing, of the others the first
  `depth` are joined, and the group is that of the root exactly where none is taken;
* a skipped directory in front changes nothing. -/
theorem groupOf_refines (skipped : List String) :
    (∀ dir dir' name name' depth, segments dir = segments dir' →
      IsSegment name → IsSegment name' →
        groupOf (dir ++ "/" ++ name) depth skipped = groupOf (dir' ++ "/" ++ name') depth skipped ∧
        groupOf name depth skipped = groupOf name' depth skipped) ∧
    (∀ path path' depth,
      groupOf path (depth + 1) skipped = groupOf path' (depth + 1) skipped →
        groupOf path depth skipped = groupOf path' depth skipped) ∧
    (∀ path, ∃ lead rest, SkipsTo skipped path lead rest ∧ ∀ depth,
      (groupOf path depth skipped = "." ↔ depth = 0 ∨ rest = []) ∧
      (depth ≠ 0 → rest ≠ [] →
        groupOf path depth skipped = "/".intercalate (rest.take (min depth rest.length)))) ∧
    (∀ directory ∈ skipped, IsSegment directory → ∀ path depth,
      groupOf (directory ++ "/" ++ path) depth skipped = groupOf path depth skipped) := by
  refine ⟨?_, ?_, ?_, ?_⟩
  · intro dir dir' name name' depth hdir hname hname'
    constructor
    · apply groupOf_eq_of_directories_eq
      rw [directories_append dir hname, directories_append dir' hname', hdir]
    · apply groupOf_eq_of_directories_eq
      rw [directories_of_isSegment hname, directories_of_isSegment hname']
  · intro path path' depth h
    rw [groupOf_eq_iff] at h ⊢
    have htake := congrArg (List.take depth) h
    rwa [List.take_take, List.take_take, Nat.min_eq_left (Nat.le_succ depth)] at htake
  · intro path
    refine ⟨_, _, skipsTo_countedDirectories skipped path, fun depth => ⟨?_, ?_⟩⟩
    · exact groupOf_eq_rootGroup_iff
    · intro hdepth hrest
      rw [groupOf_eq_groupKey, groupKey, if_neg, ← List.take_eq_take_min]
      simp [List.take_eq_nil_iff, hdepth, hrest]
  · intro directory hskipped hsegment path depth
    rw [groupOf_eq_iff, countedDirectories_append hskipped hsegment]

/-- Two files of one group at depth two, below directories of different depth, of which the
first stands in a skipped one. -/
theorem groupOf_refines_nested :
    groupOf "src/lib/a/x.ts" 2 ["src"] = groupOf "./lib//a/b/y.ts" 2 ["src"] ∧
      groupOf "src/lib/a/x.ts" 1 ["src"] = groupOf "./lib//a/b/y.ts" 1 ["src"] ∧
      segments "./lib//a" = segments "lib/a" ∧ IsSegment "x.ts" ∧ IsSegment "y.ts" ∧
      groupOf ("./lib//a" ++ "/" ++ "x.ts") 2 ["src"] =
        groupOf ("lib/a" ++ "/" ++ "y.ts") 2 ["src"] ∧
      "src" ∈ ["src"] ∧ IsSegment "src" ∧
      groupOf ("src" ++ "/" ++ "src/lib/x.ts") 3 ["src"] = groupOf "src/lib/x.ts" 3 ["src"] := by
  have hdeep : groupOf "src/lib/a/x.ts" (1 + 1) ["src"] =
      groupOf "./lib//a/b/y.ts" (1 + 1) ["src"] := by decide +kernel
  have hdir : segments "./lib//a" = segments "lib/a" := by decide +kernel
  have hx : IsSegment "x.ts" := by decide +kernel
  have hy : IsSegment "y.ts" := by decide +kernel
  have hsrc : IsSegment "src" := by decide +kernel
  obtain ⟨hsame, hrefines, _, hskipped⟩ := groupOf_refines ["src"]
  exact ⟨hdeep, hrefines _ _ 1 hdeep, hdir, hx, hy, (hsame _ _ _ _ 2 hdir hx hy).1,
    List.mem_singleton_self _, hsrc,
    hskipped "src" (List.mem_singleton_self _) hsrc "src/lib/x.ts" 3⟩

end CallAtlas.Path
