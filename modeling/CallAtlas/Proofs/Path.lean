import Mathlib.Data.List.Basic
import CallAtlas.Path

/-!
# Paths are made of segments

A **segment** is a piece of a path that says something: no slash stands in it, and it is
neither empty nor a dot. Everything about the segments of a path follows from one equation:
a slash cuts a path in two (`Path.segments_append`). Segments joined by slashes can be told
apart again (`Path.segments_intercalate`), so different lists of segments make different
paths.

A **name** is what an entry of a folder can be called, which is a segment that does not point
upwards.
-/

namespace CallAtlas

/-! ### Cutting what was joined -/

namespace Text

theorem not_mem_of_mem_splitChars {sep : Char} {cs piece : List Char}
    (h : piece ∈ splitChars sep cs) : sep ∉ piece := by
  induction cs generalizing piece with
  | nil =>
      obtain rfl := List.mem_singleton.mp h
      exact List.not_mem_nil
  | cons c cs ih =>
      unfold splitChars at h
      split at h
      · rcases List.mem_cons.mp h with rfl | h
        · exact List.not_mem_nil
        · exact ih h
      · rename_i hc
        cases hrest : splitChars sep cs with
        | nil => exact absurd hrest (splitChars_ne_nil sep cs)
        | cons first pieces =>
            rw [hrest] at h ih
            rcases List.mem_cons.mp h with rfl | h
            · have hfirst := ih List.mem_cons_self
              simpa [Ne.symm hc] using hfirst
            · exact ih (List.mem_cons_of_mem _ h)

theorem splitChars_of_not_mem {sep : Char} {cs : List Char} (h : sep ∉ cs) :
    splitChars sep cs = [cs] := by
  induction cs with
  | nil => rfl
  | cons c cs ih =>
      have hc : c ≠ sep := fun e => h (e ▸ List.mem_cons_self)
      have hcs : sep ∉ cs := fun e => h (List.mem_cons_of_mem c e)
      unfold splitChars
      rw [if_neg hc, ih hcs]

end Text

namespace Path

/-- What a piece of a path has to be to say something. -/
structure IsSegment (piece : String) : Prop where
  ne_empty : piece ≠ ""
  ne_dot : piece ≠ "."
  no_slash : '/' ∉ piece.toList

instance (piece : String) : Decidable (IsSegment piece) :=
  decidable_of_iff (piece ≠ "" ∧ piece ≠ "." ∧ '/' ∉ piece.toList)
    ⟨fun h => ⟨h.1, h.2.1, h.2.2⟩, fun h => ⟨h.ne_empty, h.ne_dot, h.no_slash⟩⟩

/-- What an entry of a folder can be called. -/
structure IsName (name : String) : Prop where
  ne_empty : name ≠ ""
  ne_dot : name ≠ "."
  ne_dots : name ≠ ".."
  no_slash : '/' ∉ name.toList

instance (name : String) : Decidable (IsName name) :=
  decidable_of_iff (name ≠ "" ∧ name ≠ "." ∧ name ≠ ".." ∧ '/' ∉ name.toList)
    ⟨fun h => ⟨h.1, h.2.1, h.2.2.1, h.2.2.2⟩,
      fun h => ⟨h.ne_empty, h.ne_dot, h.ne_dots, h.no_slash⟩⟩

theorem IsName.isSegment {name : String} (h : IsName name) : IsSegment name :=
  ⟨h.ne_empty, h.ne_dot, h.no_slash⟩

theorem isSegment_of_mem_segments {path piece : String} (h : piece ∈ segments path) :
    IsSegment piece := by
  obtain ⟨hpiece, hkept⟩ := List.mem_filter.mp h
  obtain ⟨cs, hmem, rfl⟩ := List.mem_map.mp hpiece
  simp only [Bool.and_eq_true, Bool.not_eq_true', bne_iff_ne] at hkept
  refine ⟨?_, hkept.2, ?_⟩
  · intro hempty
    rw [hempty] at hkept
    exact absurd hkept.1 (by decide)
  · rw [String.toList_ofList]
    exact Text.not_mem_of_mem_splitChars hmem

/-- The segments of a path that leads nowhere upwards are names. -/
theorem isName_of_mem_segments {path name : String} (h : name ∈ segments path)
    (hdots : name ≠ "..") : IsName name :=
  let hsegment := isSegment_of_mem_segments h
  ⟨hsegment.ne_empty, hsegment.ne_dot, hdots, hsegment.no_slash⟩

/-- **A slash cuts a path in two.** -/
theorem segments_append (path rest : String) :
    segments (path ++ "/" ++ rest) = segments path ++ segments rest := by
  have hcut : (path ++ "/" ++ rest).toList = path.toList ++ '/' :: rest.toList := by simp
  unfold segments Text.split
  rw [hcut, Text.splitChars_append, List.map_append, List.filter_append]

theorem segments_of_isSegment {piece : String} (h : IsSegment piece) :
    segments piece = [piece] := by
  have hkept : (!piece.isEmpty && piece != ".") = true := by
    have hne : piece.isEmpty = false := by simpa using h.ne_empty
    simp [hne, h.ne_dot]
  unfold segments Text.split
  rw [Text.splitChars_of_not_mem h.no_slash, List.map_singleton, String.ofList_toList,
    List.filter_singleton, hkept, cond_true]

/-- The segments of joined segments are these segments. -/
theorem segments_intercalate {pieces : List String} (h : ∀ piece ∈ pieces, IsSegment piece) :
    segments ("/".intercalate pieces) = pieces := by
  induction pieces with
  | nil => rfl
  | cons piece pieces ih =>
      obtain ⟨hpiece, hpieces⟩ := List.forall_mem_cons.mp h
      cases pieces with
      | nil => exact segments_of_isSegment hpiece
      | cons next pieces =>
          rw [String.intercalate_cons_cons, segments_append, segments_of_isSegment hpiece,
            ih hpieces, List.singleton_append]

theorem intercalate_inj {pieces pieces' : List String} (h : ∀ piece ∈ pieces, IsSegment piece)
    (h' : ∀ piece ∈ pieces', IsSegment piece)
    (heq : "/".intercalate pieces = "/".intercalate pieces') : pieces = pieces' := by
  rw [← segments_intercalate h, heq, segments_intercalate h']

end Path

end CallAtlas
