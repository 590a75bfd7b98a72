/-!
# Cutting a text at a separator

`split` cuts at every occurrence of one character and never loses a piece: a
text with `n` separators has `n + 1` pieces, some of them perhaps empty.
-/

namespace CallAtlas.Text

/-- The pieces of a character list between the occurrences of `sep`. -/
def splitChars (sep : Char) : List Char → List (List Char)
  | [] => [[]]
  | c :: cs =>
      if c = sep then [] :: splitChars sep cs
      else
        match splitChars sep cs with
        | [] => [[c]]
        | piece :: pieces => (c :: piece) :: pieces

/-- The pieces of a text between the occurrences of `sep`. -/
def split (sep : Char) (s : String) : List String :=
  (splitChars sep s.toList).map String.ofList

theorem splitChars_ne_nil (sep : Char) (cs : List Char) : splitChars sep cs ≠ [] := by
  induction cs with
  | nil => simp [splitChars]
  | cons c cs ih =>
    by_cases h : c = sep
    · simp [splitChars, h]
    · simp only [splitChars, h, if_false]
      split <;> simp

/-- A separator cuts there, whatever stands before and after it. -/
theorem splitChars_append (sep : Char) (cs rest : List Char) :
    splitChars sep (cs ++ sep :: rest) = splitChars sep cs ++ splitChars sep rest := by
  induction cs with
  | nil => simp [splitChars]
  | cons c cs ih =>
    by_cases h : c = sep
    · simp [splitChars, h, ih]
    · cases hcut : splitChars sep cs with
      | nil => exact absurd hcut (splitChars_ne_nil sep cs)
      | cons piece pieces => simp [splitChars, h, ih, hcut]

end CallAtlas.Text
