/-!
# Globs

A glob is a pattern for whole paths. Matching works on the bytes of a path, so
`?` stands for one byte. The piece that is matched next hands the bytes it leaves
over to a continuation, and a wildcard tries every way to leave some over.
-/

namespace CallAtlas

/-- One piece of a glob. -/
inductive GlobPart where
  /-- Exactly this character. -/
  | literal (c : Char)
  /-- One byte other than a slash. -/
  | anyByte
  /-- A run of bytes without a slash, possibly empty. -/
  | anyRun
  /-- Any number of leading directories. -/
  | leadingFolders
  /-- A slash and everything after it. -/
  | everythingBelow
  /-- A slash, or directories between two slashes. -/
  | foldersBetween
  /-- One byte inside the ranges, or outside them. -/
  | oneOf (negated : Bool) (ranges : List (Char × Char))
  /-- One of several patterns. -/
  | either (branches : List (List GlobPart))
deriving Repr, Inhabited

/-- A pattern for whole paths. -/
abbrev Glob := List GlobPart

/-- The bytes of a character. -/
def charBytes (c : Char) : List UInt8 := c.toString.toUTF8.toList

/-- The byte of a slash. -/
def slash : UInt8 := 47

namespace GlobPart

/-- The ranges of bytes that a range of characters stands for: its ends' bytes,
with everything between the last byte of the first end and the first byte of the
last one. -/
def byteRanges (range : Char × Char) : List (UInt8 × UInt8) :=
  let low := charBytes range.1
  if range.1 = range.2 then low.map fun b => (b, b)
  else
    let high := charBytes range.2
    let outer := low.dropLast ++ high.drop 1
    (low.getLast?.getD 0, high.head?.getD 0) :: outer.map fun b => (b, b)

/-- Is a byte inside the ranges? -/
def holdsByte (ranges : List (Char × Char)) (b : UInt8) : Bool :=
  (ranges.flatMap byteRanges).any fun (low, high) => low ≤ b && b ≤ high

end GlobPart

namespace Glob

/-- Reads given bytes, then goes on with `k`. -/
def readBytes (k : List UInt8 → Bool) : List UInt8 → List UInt8 → Bool
  | [], bytes => k bytes
  | _ :: _, [] => false
  | w :: wanted, b :: bytes => w == b && readBytes k wanted bytes

/-- Reads some bytes without a slash, then goes on with `k`. -/
def readRun (k : List UInt8 → Bool) : List UInt8 → Bool
  | [] => k []
  | b :: bytes => k (b :: bytes) || (b != slash && readRun k bytes)

/-- Reads any bytes, then goes on with `k`. -/
def readAny (k : List UInt8 → Bool) : List UInt8 → Bool
  | [] => k []
  | b :: bytes => k (b :: bytes) || readAny k bytes

/-- Reads some bytes of which the last is a slash, then goes on with `k`. -/
def readThroughSlash (k : List UInt8 → Bool) : List UInt8 → Bool
  | [] => false
  | b :: bytes => (b == slash && k bytes) || readThroughSlash k bytes

mutual

/-- Reads what one piece matches, then goes on with `k`. -/
def readPart (k : List UInt8 → Bool) : GlobPart → List UInt8 → Bool
  | .literal c, bytes => readBytes k (charBytes c) bytes
  | .anyByte, bytes =>
      match bytes with
      | b :: rest => b != slash && k rest
      | [] => false
  | .anyRun, bytes => readRun k bytes
  | .leadingFolders, bytes => k bytes || readThroughSlash k bytes
  | .everythingBelow, bytes =>
      match bytes with
      | b :: rest => b == slash && readAny k rest
      | [] => false
  | .foldersBetween, bytes =>
      match bytes with
      | b :: rest => b == slash && (k rest || readThroughSlash k rest)
      | [] => false
  | .oneOf negated ranges, bytes =>
      match bytes with
      | b :: rest => (GlobPart.holdsByte ranges b != negated) && k rest
      | [] => false
  | .either branches, bytes => readEither k false branches bytes

/-- Reads what all pieces match one after the other, then goes on with `k`. -/
def readParts (k : List UInt8 → Bool) : List GlobPart → List UInt8 → Bool
  | [], bytes => k bytes
  | part :: parts, bytes => readPart (readParts k parts) part bytes

/-- Reads what one of some branches matches. A branch without pieces is none,
and if there is no other, nothing needs to match; `tried` says whether there was
another. -/
def readEither (k : List UInt8 → Bool) (tried : Bool) : List (List GlobPart) → List UInt8 → Bool
  | [], bytes => !tried && k bytes
  | [] :: branches, bytes => readEither k tried branches bytes
  | (part :: parts) :: branches, bytes =>
      readPart (readParts k parts) part bytes || readEither k true branches bytes

end

/-- Does the glob end in a dot after something other than fixed text? A path that
ends in a dot is taken to name no file, and so only fixed text is compared with
it. -/
def namesDot (g : Glob) : Bool :=
  let isLiteral : GlobPart → Bool
    | .literal _ => true
    | _ => false
  let isSlash : GlobPart → Bool
    | .literal '/' => true
    | _ => false
  let tail := g.reverse.takeWhile isLiteral
  let endsInDot := match tail with
    | .literal '.' :: _ => true
    | _ => false
  let fixed : Bool := match g with
    | .leadingFolders :: rest => rest.all isLiteral && rest.any isSlash
    | _ => g.all isLiteral
  endsInDot && !fixed

/-- Does the glob match all of these bytes? -/
def accepts (g : Glob) (bytes : List UInt8) : Bool :=
  match g with
  | [.leadingFolders] => true
  | _ => !g.namesDot && readParts List.isEmpty g bytes

end Glob

end CallAtlas
