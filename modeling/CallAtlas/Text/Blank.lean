/-!
# White space

The characters with the Unicode property `White_Space`, and the two things the
library does with them: cutting a text into words, and rewriting every run of
white space as one space.
-/

namespace CallAtlas.Text

/-- Does the character have the Unicode property `White_Space`? -/
def isBlank (c : Char) : Bool :=
  let n := c.toNat
  (9 ≤ n && n ≤ 13) || n == 0x20 || n == 0x85 || n == 0xA0 || n == 0x1680 ||
    (0x2000 ≤ n && n ≤ 0x200A) || n == 0x2028 || n == 0x2029 || n == 0x202F ||
    n == 0x205F || n == 0x3000

/-- The maximal runs of non-blank characters of `cs`, given the word `current`
read so far (in reverse). -/
def wordsFrom (current : List Char) : List Char → List (List Char)
  | [] => if current.isEmpty then [] else [current.reverse]
  | c :: cs =>
      if isBlank c then
        if current.isEmpty then wordsFrom [] cs else current.reverse :: wordsFrom [] cs
      else wordsFrom (c :: current) cs

/-- The words of a text: its maximal runs of characters that are not blank. -/
def words (s : String) : List String :=
  (wordsFrom [] s.toList).map String.ofList

/-- The words of a text with one space between each two: leading and trailing
white space is gone and every inner run has become a single space. -/
def squeeze (s : String) : String :=
  " ".intercalate (words s)

/-- The text without its trailing white space. -/
def trimBlankEnd (cs : List Char) : List Char :=
  (cs.reverse.dropWhile isBlank).reverse

end CallAtlas.Text
