import CallAtlas.Failure
import CallAtlas.FileTree
import CallAtlas.Ignore.Rule
import CallAtlas.Settings.Basic
import CallAtlas.Text.Split
import CallAtlas.Text.Utf8

/-!
# The ignore policy of a project

Dependencies, build products and version control data are never looked at, nor
are files that hold declarations only. Tests are left out unless the settings
ask for them. After these come the rules in the ignore files of the project and
then those in the settings, so that later rules can take paths back in.
-/

namespace CallAtlas

/-- Directories that hold no code of the project. -/
def ignoredFolders : List String :=
  ["node_modules/", "bower_components/", "jspm_packages/", ".pnpm/", ".yarn/",
    "dist/", "build/", "out/", "coverage/", ".nyc_output/",
    ".cache/", ".next/", ".nuxt/", ".turbo/", ".vercel/", ".parcel-cache/",
    ".git/", ".svn/", ".hg/",
    ".idea/", ".vscode/"]

/-- Files that are generated or hold declarations only. -/
def ignoredFiles : List String :=
  ["*.d.ts", "*.d.mts", "*.d.cts", "*.min.js", "*.bundle.js", "*.generated.*"]

/-- Tests. -/
def testPatterns : List String :=
  ["*.test.*", "*.spec.*", "__tests__/", "__mocks__/", "test/", "tests/"]

/-- The ignore file of the version control. -/
def gitignoreName : String := ".gitignore"

/-- The ignore file of the analysis. -/
def ignoreFileName : String := ".stagemapignore"

/-- The rules of some patterns, or the first pattern that is none. -/
def rulesOf : List String → Except ScanFailure (List IgnoreRule)
  | [] => .ok []
  | pattern :: patterns =>
      match IgnoreRule.ofLine pattern with
      | .error defect => .error (.invalidIgnorePattern pattern defect.message)
      | .ok rule? =>
          match rulesOf patterns with
          | .error failure => .error failure
          | .ok rules => .ok (rule?.toList ++ rules)

/-- The rules of some lines; a line that is none is passed over. -/
def lenientRulesOf (lines : List String) : List IgnoreRule :=
  lines.filterMap fun line =>
    match IgnoreRule.ofLine line with
    | .ok rule? => rule?
    | .error _ => none

/-- Bytes cut at line ends. Nothing follows a line end at the very end. -/
def byteLines : List UInt8 → List (List UInt8)
  | [] => []
  | b :: bytes =>
      if b = 10 then [] :: byteLines bytes
      else
        match byteLines bytes with
        | [] => [[b]]
        | line :: lines => (b :: line) :: lines

/-- A line without the carriage return at its end. -/
def dropReturn (line : List UInt8) : List UInt8 :=
  if line.getLast? = some 13 then line.dropLast else line

/-- The lines of an ignore file up to the first one that is not well-formed text.
A byte order mark before the first one is dropped. -/
def ignoreLines (bytes : ByteArray) : List String :=
  let texts := (byteLines bytes.toList).map fun line =>
    Text.decode? ⟨(dropReturn line).toArray⟩
  match (texts.takeWhile (·.isSome)).filterMap id with
  | [] => []
  | first :: rest => String.ofList (first.toList.dropWhile (· == '\uFEFF')) :: rest

/-- The rules of an ignore file in a folder of a tree, if there is one. -/
def rulesOfFile (tree : FileTree) (folder : List String) (name : String) : List IgnoreRule :=
  if tree.hasFile (folder ++ [name]) then
    match tree.read (folder ++ [name]) with
    | .ok bytes => lenientRulesOf (ignoreLines bytes)
    | .error _ => []
  else []

/-- The rules about the paths below one folder. -/
structure IgnorePolicy where
  /-- The path of the folder as it is shown, without a leading `./`. -/
  root : String
  /-- In the order they were stated. -/
  rules : List IgnoreRule
deriving Repr, Inhabited

namespace IgnorePolicy

/-- The text without a given beginning. -/
def dropStart? (start cs : List Char) : Option (List Char) :=
  if start.isPrefixOf cs then some (cs.drop start.length) else none

/-- The path without a leading `./`. -/
def dropDot (path : List Char) : List Char := (dropStart? ['.', '/'] path).getD path

/-- The policy for a folder of a tree. -/
def make (tree : FileTree) (folder : List String) (root : String) (settings : ScanSettings) :
    Except ScanFailure IgnorePolicy := do
  let standard ← rulesOf (ignoredFolders ++ ignoredFiles ++
    (if settings.takesTests then [] else testPatterns))
  let fromGit := if settings.honoursGitignore then rulesOfFile tree folder gitignoreName else []
  let fromFile := rulesOfFile tree folder ignoreFileName
  let extra ← rulesOf settings.extraIgnores
  return { root := String.ofList (dropDot root.toList),
           rules := standard ++ fromGit ++ fromFile ++ extra }

/-- A path, last character first, without the slashes and the lone dots at its
end. -/
def dropTrailing : List Char → List Char
  | '/' :: rest => dropTrailing rest
  | '.' :: '/' :: rest => dropTrailing rest
  | cs => cs

/-- The folder that a path lies in, as it is written. The empty path lies in
none. -/
def parent? (path : List Char) : Option (List Char) :=
  match dropTrailing path.reverse with
  | [] => none
  | reversed => some (dropTrailing (reversed.dropWhile (· != '/'))).reverse

/-- A path and the folders it lies in, nearest first; at most `fuel` of them. -/
def lineage : Nat → List Char → List (List Char)
  | 0, path => [path]
  | fuel + 1, path =>
      match parent? path with
      | none => [path]
      | some parent => path :: lineage fuel parent

/-- The path relative to the root. -/
def relative (p : IgnorePolicy) (path : List Char) : List Char :=
  let path := dropDot path
  if p.root = "." || !path.contains '/' then path
  else
    match dropStart? p.root.toList path with
    | none => path
    | some rest => (dropStart? ['/'] rest).getD rest

/-- What the policy says about a path inside the root. -/
def verdictOn? (p : IgnorePolicy) (path : List Char) (isFolder : Bool) : Option Verdict :=
  firstVerdict? p.rules isFolder
    ((lineage path.length path).map fun cs => (String.ofList cs).toUTF8.toList)

/-- Is a path ignored, by itself or with a folder it lies in? There is no answer
about a path outside the root. -/
def ignores? (p : IgnorePolicy) (path : String) (isFolder : Bool) : Option Bool :=
  if path.isEmpty then some false
  else
    let path := p.relative path.toList
    if path.head? = some '/' then none
    else some (p.verdictOn? path isFolder == some .ignored)

end IgnorePolicy

end CallAtlas
