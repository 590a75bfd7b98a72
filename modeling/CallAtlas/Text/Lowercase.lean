import CallAtlas.Text.CaseTable

/-!
# Lower case

The full lower-case form of a text. Every character is mapped on its own but for
two: a capital I with a dot becomes two characters, and a capital sigma at the
end of a word becomes the final form of the small one.
-/

namespace CallAtlas.Text

/-- Does a code point lie in one of the ranges? -/
def inRanges (ranges : Array (Nat × Nat)) (n : Nat) : Bool :=
  ranges.any fun (first, last) => first ≤ n && n ≤ last

/-- Does the character have the property `Cased`? -/
def isCased (c : Char) : Bool := inRanges casedRanges c.toNat

/-- Does the character have the property `Case_Ignorable`? -/
def isCaseIgnorable (c : Char) : Bool := inRanges caseIgnorableRanges c.toNat

/-- The lower case of a character, where that is one character. -/
def lowerChar (c : Char) : Char :=
  let n := c.toNat
  if n < 0x80 then c.toLower
  else
    match lowerRuns.find? fun (first, last, step, _) =>
        first ≤ n && n ≤ last && (n - first) % step == 0 with
    | some (_, _, _, distance) => Char.ofNat (n + distance).toNat
    | none => c

/-- Is the first character that case does not ignore a cased one? -/
def startsCased (cs : List Char) : Bool :=
  match cs.dropWhile isCaseIgnorable with
  | c :: _ => isCased c
  | [] => false

/-- The lower case of a character between the text `before` it (in reverse) and
the text `after` it. -/
def lowerBetween (before : List Char) (c : Char) (after : List Char) : List Char :=
  if c == '\u03A3' then
    [if startsCased before && !startsCased after then '\u03C2' else '\u03C3']
  else if c == '\u0130' then ['i', '\u0307']
  else [lowerChar c]

/-- The lower case of a text that follows `before` (in reverse). -/
def lowerAfter (before : List Char) : List Char → List Char
  | [] => []
  | c :: cs => lowerBetween before c cs ++ lowerAfter (c :: before) cs

/-- The lower case of a text. -/
def lowercase (s : String) : String := String.ofList (lowerAfter [] s.toList)

/-- Does `part` occur in the text? -/
def containsChars (part : List Char) : List Char → Bool
  | [] => part.isEmpty
  | c :: cs => part.isPrefixOf (c :: cs) || containsChars part cs

/-- Does `part` occur in `whole`? -/
def contains (whole part : String) : Bool := containsChars part.toList whole.toList

end CallAtlas.Text
