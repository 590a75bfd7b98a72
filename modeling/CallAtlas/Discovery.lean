import CallAtlas.Ignore.Policy
import CallAtlas.Script.Language

/-!
# Discovering source files

The files below a root that can be analysed and are not ignored, by path. A
folder that is ignored is not entered. Links are passed over, or followed where
the settings say so; then no folder is listed twice, so that a link to a folder
above it ends the walk instead of repeating it.

What cannot be looked at and what cannot be listed is counted and left out. Only
the root itself has to be a folder that can be listed.
-/

namespace CallAtlas

open Script (Language)

/-- A source file that was found. -/
structure DiscoveredFile where
  /-- The path relative to the root, with forward slashes. -/
  path : String
  group : String
  language : Language
  size : Nat
deriving DecidableEq, Repr, Inhabited

/-- What a walk met. -/
structure ScanStats where
  filesFound : Nat := 0
  filesUnsupported : Nat := 0
  entriesIgnored : Nat := 0
  entriesUnreadable : Nat := 0
deriving DecidableEq, Repr, Inhabited

/-- A root whose files are to be discovered. -/
structure Scanner where
  tree : FileTree
  /-- The root's path from the top of the tree. -/
  folder : List String
  /-- The root's path as it is shown. -/
  root : String
  policy : IgnorePolicy
  followsLinks : Bool
  groupDepth : Nat
  skipped : List String
deriving Inhabited

namespace Scanner

/-- A scanner for a folder, whose path as it is shown is `root`. The folder must
be there and let itself be listed, and the ignore patterns of the settings must
make sense. -/
def make (tree : FileTree) (folder : List String) (root : String) (settings : ScanSettings) :
    Except ScanFailure Scanner := do
  match tree.find folder with
  | .error cause => throw (.rootUnreadable root cause.message)
  | .ok (.folder _) =>
      let policy ← IgnorePolicy.make tree folder root settings
      return { tree, folder, root, policy, followsLinks := settings.followsLinks,
               groupDepth := settings.depth, skipped := settings.skipped }
  | .ok .closed => throw (.rootUnreadable root AccessFailure.denied.message)
  | .ok _ => throw (.rootUnreadable root "not a directory")

/-- A folder to be listed: its path relative to the root, its place in the tree,
and what it lists if it can be listed. -/
structure Visit where
  names : List String
  place : List String
  listing : Option (List (String × FileNode))
deriving Inhabited

/-- What an entry turns out to be. -/
inductive Sight where
  /-- A link that is not followed. -/
  | passedOver
  | unreadable
  | file (size : Nat)
  | folder (place : List String) (listing : Option (List (String × FileNode)))
  /-- Neither a file nor a folder. -/
  | other

/-- What the node at a place turns out to be when its metadata is read. -/
def Sight.ofNode (place : List String) : FileNode → Sight
  | .file bytes => file bytes.size
  | .special => other
  | .folder entries => folder place (some entries)
  | .closed => folder place none
  | .link _ | .broken _ _ => unreadable

/-- Looks at an entry of a folder. A link is looked up by the whole path that leads to it,
so the links on that path count towards the limit. -/
def look (s : Scanner) (v : Visit) (name : String) (node : FileNode) : Sight :=
  match node with
  | .broken .entry _ => .unreadable
  | .broken .kind _ => .unreadable
  | .link _ =>
      if !s.followsLinks then .passedOver
      else
        match s.tree.resolve (s.folder ++ v.names ++ [name]) with
        | .error _ => .unreadable
        | .ok target =>
            match s.tree.nodeAt? target with
            | some node => .ofNode target node
            | none => .unreadable
  | .broken .metadata _ => .unreadable
  | node => .ofNode (v.place ++ [name]) node

/-- A walk under way. -/
structure Walk where
  /-- Folders still to be listed, the next one first. -/
  pending : List Visit
  /-- The places of the folders listed, where links are followed. -/
  listed : List (List String)
  files : List DiscoveredFile
  stats : ScanStats
deriving Inhabited

/-- Is a path ignored? -/
def ignores (s : Scanner) (path : String) (isFolder : Bool) : Bool :=
  (s.policy.ignores? path isFolder).getD false

/-- Takes one file into account. -/
def meetFile (s : Scanner) (path : String) (size : Nat) (w : Walk) : Walk :=
  match Language.ofPath? path with
  | none => { w with stats := { w.stats with filesUnsupported := w.stats.filesUnsupported + 1 } }
  | some language =>
      { w with
        files := { path, group := Path.groupOf path s.groupDepth s.skipped, language, size } ::
          w.files }

/-- A walk with one more entry or folder that could not be read. -/
def Walk.countUnreadable (w : Walk) : Walk :=
  { w with stats := { w.stats with entriesUnreadable := w.stats.entriesUnreadable + 1 } }

/-- Takes one entry of a folder into account. -/
def meet (s : Scanner) (v : Visit) (w : Walk) (entry : String × FileNode) : Walk :=
  let names := v.names ++ [entry.1]
  let path := "/".intercalate names
  let ignored : Walk :=
    { w with stats := { w.stats with entriesIgnored := w.stats.entriesIgnored + 1 } }
  match s.look v entry.1 entry.2 with
  | .passedOver => w
  | .unreadable => w.countUnreadable
  | .file size => if s.ignores path false then ignored else s.meetFile path size w
  | .folder place listing =>
      if s.ignores path true then ignored
      else { w with pending := { names, place, listing } :: w.pending }
  | .other => if s.ignores path false then ignored else w

/-- Lists a folder, unless it has been listed before and links are followed. -/
def list (s : Scanner) (v : Visit) (w : Walk) : Walk :=
  if s.followsLinks && w.listed.contains v.place then w
  else
    let w := { w with listed := v.place :: w.listed }
    match v.listing with
    | none => w.countUnreadable
    | some entries => entries.foldl (s.meet v) w

/-- Lists folders until none is left, at most `fuel` of them. -/
def walk (s : Scanner) : Nat → Walk → Walk
  | 0, w => w
  | fuel + 1, w =>
      match w.pending with
      | [] => w
      | v :: pending => s.walk fuel (s.list v { w with pending })

/-- The folder the walk starts at. -/
def rootVisit (s : Scanner) : Visit :=
  match s.tree.resolve s.folder with
  | .ok place => { names := [], place, listing := s.tree.listing? place }
  | .error _ => { names := [], place := s.folder, listing := none }

/-- The walk before the first folder is listed. -/
def start (s : Scanner) : Walk :=
  { pending := [s.rootVisit], listed := [], files := [], stats := {} }

/-- The files below the root by path, and what the walk met. Every folder is put
on the list at most once for each entry that leads to it, which bounds the
walk. -/
def discover (s : Scanner) : List DiscoveredFile × ScanStats :=
  let w := s.walk (s.tree.weight + 1) s.start
  let files := w.files.reverse.mergeSort fun a b => (compare a.path b.path).isLE
  (files, { w.stats with filesFound := files.length })

end Scanner

end CallAtlas
