import CallAtlas.Ignore.GlobReader
import CallAtlas.Text.Blank

/-!
# Ignore rules

One line of an ignore list is one rule. The last rule that matches a path decides
about it; if none does, its parents are asked, nearest first.
-/

namespace CallAtlas

/-- A rule about paths. -/
structure IgnoreRule where
  glob : Glob
  /-- Does the rule take paths back in? -/
  readmits : Bool
  /-- Does the rule speak of directories only? -/
  foldersOnly : Bool
deriving Repr, Inhabited

namespace IgnoreRule

/-- Why a line is no rule: the defect of its glob, and the line as it was
understood. -/
structure Defect where
  line : String
  cause : GlobDefect
deriving DecidableEq, Repr, Inhabited

/-- The wording of a defect. -/
def Defect.message (d : Defect) : String :=
  "error parsing glob '" ++ d.line ++ "': " ++ d.cause.message

/-- The line without its trailing white space, which counts only after a
backslash. -/
def trimLine (cs : List Char) : List Char :=
  if [' ', '\\'].isPrefixOf cs.reverse then cs else Text.trimBlankEnd cs

/-- Does a glob stand for paths at any depth already? -/
def startsAnywhere (cs : List Char) : Bool :=
  cs == ['*', '*'] || ['*', '*', '/'].isPrefixOf cs

/-- The glob that a line's pattern stands for. A pattern without a slash applies
at any depth unless it is anchored, and one that ends in `/**` does not apply to
the directory itself. -/
def widened (anchored : Bool) (cs : List Char) : List Char :=
  let cs :=
    if !anchored && !cs.contains '/' && !startsAnywhere cs then ['*', '*', '/'] ++ cs else cs
  if ['*', '*', '/'].isPrefixOf cs.reverse then cs ++ ['/', '*'] else cs

/-- The marks at the start of a line: does it readmit, is it anchored, and what
is left. -/
def dropMarks (cs : List Char) : Bool × Bool × List Char :=
  match cs with
  | '\\' :: '!' :: rest => (false, false, '!' :: rest)
  | '\\' :: '#' :: rest => (false, false, '#' :: rest)
  | _ =>
      let (readmits, cs) := match cs with
        | '!' :: rest => (true, rest)
        | _ => (false, cs)
      match cs with
      | '/' :: rest => (readmits, true, rest)
      | _ => (readmits, false, cs)

/-- The mark at the end of a line: does it speak of directories only, and what is
left. A backslash before the slash goes with it. -/
def dropFolderMark (cs : List Char) : Bool × List Char :=
  match cs.reverse with
  | '/' :: '\\' :: rest => (true, rest.reverse)
  | '/' :: rest => (true, rest.reverse)
  | _ => (false, cs)

/-- The rule a line states; a comment or a blank line states none. -/
def ofLine (line : String) : Except Defect (Option IgnoreRule) :=
  let cs := line.toList
  if cs.head? = some '#' then .ok none
  else
    let cs := trimLine cs
    if cs.isEmpty then .ok none
    else
      let (readmits, anchored, body) := dropMarks cs
      let (foldersOnly, body) := dropFolderMark body
      match Glob.parse (widened anchored body) with
      | .ok glob => .ok (some { glob, readmits, foldersOnly })
      | .error cause => .error { line := String.ofList cs, cause }

/-- Does the rule apply to a path? -/
def applies (r : IgnoreRule) (path : List UInt8) (isFolder : Bool) : Bool :=
  (!r.foldersOnly || isFolder) && r.glob.accepts path

end IgnoreRule

/-- What rules say about a path. -/
inductive Verdict where
  | ignored
  | readmitted
deriving DecidableEq, Repr, Inhabited

/-- What the last rule that applies to a path says. -/
def verdict? (rules : List IgnoreRule) (path : List UInt8) (isFolder : Bool) : Option Verdict :=
  (rules.reverse.find? (·.applies path isFolder)).map fun r =>
    if r.readmits then .readmitted else .ignored

/-- What is said about the first of some paths about which anything is said. The
first path may name a file, the others name directories. -/
def firstVerdict? (rules : List IgnoreRule) (isFolder : Bool) : List (List UInt8) → Option Verdict
  | [] => none
  | path :: parents =>
      match verdict? rules path isFolder with
      | some v => some v
      | none => firstVerdict? rules true parents

end CallAtlas
