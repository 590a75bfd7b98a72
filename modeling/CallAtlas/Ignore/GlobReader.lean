import CallAtlas.Ignore.Glob

/-!
# Reading globs

A glob is read from left to right. Braces open groups of branches that nest; the
reader keeps the branch it is in and, for every open group, the branches that are
complete.
-/

namespace CallAtlas

/-- Why a text is no glob. -/
inductive GlobDefect where
  | invalidRange (low high : Char)
  | unclosedGroup
  | unopenedGroup
  | danglingEscape
deriving DecidableEq, Repr, Inhabited

/-- The wording of a defect. -/
def GlobDefect.message : GlobDefect → String
  | invalidRange low high =>
      "invalid range; '" ++ low.toString ++ "' > '" ++ high.toString ++ "'"
  | unclosedGroup =>
      "unclosed alternate group; missing '\x7d' (maybe escape '\x7b' with '[\x7b]'?)"
  | unopenedGroup =>
      "unopened alternate group; missing '\x7b' (maybe escape '\x7d' with '[\x7d]'?)"
  | danglingEscape => "dangling '\\'"

namespace Glob

/-! ### Classes -/

/-- A class being read: its ranges, the last one first, and whether a dash has
been read that may start a range. -/
structure ClassReading where
  ranges : List (Char × Char)
  dashed : Bool

/-- Ends the last range of a class. -/
def ClassReading.close (r : ClassReading) (high : Char) : Except GlobDefect ClassReading :=
  match r.ranges with
  | [] => .ok { ranges := [(high, high)], dashed := false }
  | (low, _) :: rest =>
      if high < low then .error (.invalidRange low high)
      else .ok { ranges := (low, high) :: rest, dashed := false }

/-- Reads one character of a class that does not end it. -/
def ClassReading.add (r : ClassReading) (first : Bool) (c : Char) :
    Except GlobDefect ClassReading :=
  if c = '-' && !first && !r.dashed then .ok { r with dashed := true }
  else if r.dashed then r.close c
  else .ok { ranges := (c, c) :: r.ranges, dashed := false }

/-- Reads a class from its first character on. The answer is nothing where it is
never closed, and otherwise its ranges and the rest of the text. -/
def readClass (first : Bool) (r : ClassReading) :
    List Char → Except GlobDefect (Option (List (Char × Char) × List Char))
  | [] => .ok none
  | c :: cs =>
      if c = ']' && !first then
        let ranges := if r.dashed then ('-', '-') :: r.ranges else r.ranges
        .ok (some (ranges.reverse, cs))
      else
        match r.add first c with
        | .error defect => .error defect
        | .ok r => readClass false r cs

/-- Reads a class after its opening bracket. -/
def readClassBody (cs : List Char) :
    Except GlobDefect (Option (GlobPart × List Char)) :=
  let (negated, body) := match cs with
    | '!' :: rest => (true, rest)
    | '^' :: rest => (true, rest)
    | _ => (false, cs)
  (readClass true { ranges := [], dashed := false } body).map fun found =>
    found.map fun (ranges, rest) => (.oneOf negated ranges, rest)

/-! ### Groups -/

/-- A group of branches being read: the complete ones and the pieces of the one
under way, both with the last first. -/
structure Level where
  complete : List (List GlobPart)
  pieces : List GlobPart
deriving Inhabited

/-- A glob being read. -/
structure GlobReading where
  /-- The innermost open group, or the glob itself where none is open. -/
  level : Level := { complete := [], pieces := [] }
  /-- What surrounds it, the innermost first. -/
  outer : List Level := []
  /-- The character read last. -/
  last : Option Char := none
  /-- Has a bracket been found that is never closed? From there on brackets stand
  for themselves. -/
  unclosedClass : Bool := false

namespace GlobReading

/-- Adds a piece after a character has been read. -/
def push (r : GlobReading) (last : Char) (part : GlobPart) : GlobReading :=
  { r with level := { r.level with pieces := part :: r.level.pieces }, last := some last }

/-- Adds two runs for two stars that have no meaning of their own. -/
def pushStars (r : GlobReading) : GlobReading := (r.push '*' .anyRun).push '*' .anyRun

/-- Opens a group. -/
def openGroup (r : GlobReading) : GlobReading :=
  { r with
    level := { complete := [], pieces := [] }, outer := r.level :: r.outer, last := some '\x7b' }

/-- Ends a branch; outside of groups a comma stands for itself. -/
def comma (r : GlobReading) : GlobReading :=
  if r.outer.isEmpty then r.push ',' (.literal ',')
  else
    { r with
      level := { complete := r.level.pieces.reverse :: r.level.complete, pieces := [] }
      last := some ',' }

/-- Closes a group. -/
def closeGroup (r : GlobReading) : Except GlobDefect GlobReading :=
  match r.outer with
  | [] => .error .unopenedGroup
  | level :: outer =>
      let branches := (r.level.pieces.reverse :: r.level.complete).reverse
      .ok { r with
        level := { level with pieces := .either branches :: level.pieces }
        outer, last := some '\x7d' }

/-- Replaces the slash before two stars by a piece for directories, unless the
piece there stands for directories already. -/
def pushFolders (r : GlobReading) (last : Option Char) (part : GlobPart) : GlobReading :=
  let pieces := match r.level.pieces with
    | .leadingFolders :: rest => .leadingFolders :: rest
    | .everythingBelow :: rest => .everythingBelow :: rest
    | _ :: rest => part :: rest
    | [] => [part]
  { r with level := { r.level with pieces }, last }

/-- Reads what follows two stars, which stand for directories where slashes or
ends surround them. The answer says whether a slash after them was read too. -/
def twoStars (r : GlobReading) (next : Option Char) : GlobReading × Bool :=
  if r.level.pieces.isEmpty then
    match next with
    | none => (r.push '*' .leadingFolders, false)
    | some '/' => (r.push '/' .leadingFolders, true)
    | some _ => (r.pushStars, false)
  else if r.last != some '/' &&
      (r.outer.isEmpty || (r.last != some ',' && r.last != some '\x7b')) then
    (r.pushStars, false)
  else
    match next with
    | none => (r.pushFolders (some '*') .everythingBelow, false)
    | some '/' => (r.pushFolders (some '/') .foldersBetween, true)
    | some c =>
        if !r.outer.isEmpty && (c == ',' || c == '\x7d') then
          (r.pushFolders (some '*') .everythingBelow, false)
        else (r.pushStars, false)

end GlobReading

/-- Reads a glob. Every step reads a character, so `fuel` need not exceed their
number. -/
def readFrom : Nat → GlobReading → List Char → Except GlobDefect GlobReading
  | 0, r, _ => .ok r
  | _, r, [] => .ok r
  | fuel + 1, r, c :: cs =>
      match c with
      | '?' => readFrom fuel (r.push '?' .anyByte) cs
      | '*' =>
          match cs with
          | '*' :: rest =>
              let (r, slashRead) := r.twoStars rest.head?
              readFrom fuel r (if slashRead then rest.drop 1 else rest)
          | _ => readFrom fuel (r.push '*' .anyRun) cs
      | '[' =>
          if r.unclosedClass then readFrom fuel (r.push '[' (.literal '[')) cs
          else
            match readClassBody cs with
            | .error defect => .error defect
            | .ok none =>
                readFrom fuel { r.push '[' (.literal '[') with unclosedClass := true } cs
            | .ok (some (part, rest)) => readFrom fuel (r.push ']' part) rest
      | '\x7b' => readFrom fuel r.openGroup cs
      | '\x7d' =>
          match r.closeGroup with
          | .error defect => .error defect
          | .ok r => readFrom fuel r cs
      | ',' => readFrom fuel r.comma cs
      | '\\' =>
          match cs with
          | [] => .error .danglingEscape
          | e :: rest => readFrom fuel (r.push e (.literal e)) rest
      | c => readFrom fuel (r.push c (.literal c)) cs

/-- Reads a whole text as a glob. -/
def parse (text : List Char) : Except GlobDefect Glob :=
  match readFrom text.length {} text with
  | .error defect => .error defect
  | .ok r => if r.outer.isEmpty then .ok r.level.pieces.reverse else .error .unclosedGroup

end Glob

end CallAtlas
