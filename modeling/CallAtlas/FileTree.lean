import CallAtlas.Path

/-!
# Trees of files

A file tree in memory: folders list their entries in some order, and a link
names another place relative to the folder it stands in. Looking a path up
follows the links on its way, as often as `linkLimit` allows.

Not everything in a tree can be read. A folder may be closed, and of an entry
there may be nothing to be had but an error.
-/

namespace CallAtlas

/-- Why a place in a tree cannot be used. -/
inductive AccessFailure where
  | missing
  | inputOutput
  | noDevice
  | denied
  | notFolder
  | isFolder
  | tooManyLinks
deriving DecidableEq, Repr, Inhabited

/-- The system's wording. -/
def AccessFailure.message : AccessFailure → String
  | missing => "No such file or directory (os error 2)"
  | inputOutput => "Input/output error (os error 5)"
  | noDevice => "No such device or address (os error 6)"
  | denied => "Permission denied (os error 13)"
  | notFolder => "Not a directory (os error 20)"
  | isFolder => "Is a directory (os error 21)"
  | tooManyLinks => "Too many levels of symbolic links (os error 40)"

/-- Where the error comes that an entry gives. -/
inductive EntryFault where
  /-- In the listing of its folder, in place of the entry. -/
  | entry
  /-- When its kind is asked for. -/
  | kind
  /-- When its metadata is asked for; it is no link. -/
  | metadata
deriving DecidableEq, Repr, Inhabited

/-- One entry of a folder. -/
inductive FileNode where
  | file (bytes : ByteArray)
  /-- A pipe, a socket or a device. -/
  | special
  | link (target : String)
  | folder (entries : List (String × FileNode))
  /-- A folder that may be neither listed nor entered. -/
  | closed
  /-- An entry that gives an error, and the cause that a lookup of it fails with. -/
  | broken (fault : EntryFault) (cause : AccessFailure)
deriving Inhabited

/-- A file tree: the entries of its top folder. -/
structure FileTree where
  entries : List (String × FileNode) := []
deriving Inhabited

namespace FileNode

/-- The entry with a name. -/
def entry? (entries : List (String × FileNode)) (name : String) : Option FileNode :=
  (entries.find? (·.1 == name)).map (·.2)

/-- Entries with one of them set, in place if there is one with that name and at
the end otherwise. -/
def setEntry (entries : List (String × FileNode)) (name : String) (node : FileNode) :
    List (String × FileNode) :=
  if entries.any (·.1 == name) then
    entries.map fun e => if e.1 == name then (name, node) else e
  else entries ++ [(name, node)]

/-- Puts a node at a place, making the folders on the way. A folder that is there
already stays. -/
def put (node : FileNode) : List String → List (String × FileNode) → List (String × FileNode)
  | [], entries => entries
  | [name], entries =>
      match entry? entries name, node with
      | some (.folder sub), .folder _ => setEntry entries name (.folder sub)
      | _, _ => setEntry entries name node
  | name :: names, entries =>
      match entry? entries name with
      | some (.folder sub) => setEntry entries name (.folder (put node names sub))
      | _ => setEntry entries name (.folder (put node names []))

mutual

/-- The number of entries of a node, at any depth. -/
def weight : FileNode → Nat
  | folder entries => weightAll entries
  | _ => 0

/-- The number of entries in a list, those inside them included. -/
def weightAll : List (String × FileNode) → Nat
  | [] => 0
  | (_, node) :: rest => 1 + node.weight + weightAll rest

end

end FileNode

namespace FileTree

/-- Puts a node at a path, making the folders on the way. -/
def put (t : FileTree) (path : String) (node : FileNode) : FileTree :=
  { entries := node.put (Path.segments path) t.entries }

/-- The node at a place. The place is given by names alone; no link is
followed. -/
def nodeAt? (t : FileTree) (place : List String) : Option FileNode :=
  place.foldl (fun node name =>
    match node with
    | some (.folder entries) => FileNode.entry? entries name
    | _ => none) (some (.folder t.entries))

/-- What the folder at a place lists. There may be no folder, or a closed one. -/
def listing? (t : FileTree) (place : List String) : Option (List (String × FileNode)) :=
  match t.nodeAt? place with
  | some (.folder entries) => some entries
  | _ => none

/-- The number of entries of the tree. -/
def weight (t : FileTree) : Nat := FileNode.weightAll t.entries

/-! ### Looking up -/

/-- How often links are followed on the way to one place. -/
def linkLimit : Nat := 40

/-- How far a lookup came without following a link. -/
inductive Lookup where
  | arrived (place : List String)
  | failed (cause : AccessFailure)
  /-- At a link in the folder at `place`, with some names left to go. -/
  | atLink (place : List String) (target : String) (rest : List String)

/-- Goes on from a folder name by name until a link stands in the way. -/
def advance (t : FileTree) (place : List String) : List String → Lookup
  | [] => .arrived place
  | name :: rest =>
      if name = ".." then t.advance place.dropLast rest
      else
        match t.nodeAt? (place ++ [name]) with
        | none => .failed .missing
        | some (.link target) => .atLink place target rest
        | some (.folder _) => t.advance (place ++ [name]) rest
        | some (.broken _ cause) => .failed cause
        | some .closed => if rest.isEmpty then .arrived (place ++ [name]) else .failed .denied
        | some (.file _) | some .special =>
            if rest.isEmpty then .arrived (place ++ [name]) else .failed .notFolder

/-- Goes on from a folder, following links at most `limit` times. A link out of
the tree leads nowhere. -/
def resolveFrom (t : FileTree) : Nat → List String → List String →
    Except AccessFailure (List String)
  | limit, place, names =>
      match t.advance place names with
      | .arrived place => .ok place
      | .failed cause => .error cause
      | .atLink place target rest =>
          match limit with
          | 0 => .error .tooManyLinks
          | limit + 1 =>
              if target.startsWith "/" then .error .missing
              else t.resolveFrom limit place (Path.segments target ++ rest)

/-- The place that a path leads to, with no link on it. -/
def resolve (t : FileTree) (names : List String) : Except AccessFailure (List String) :=
  t.resolveFrom linkLimit [] names

/-- The node that a path leads to, links followed. -/
def find (t : FileTree) (names : List String) : Except AccessFailure FileNode := do
  let place ← t.resolve names
  match t.nodeAt? place with
  | some node => return node
  | none => .error .missing

/-- Does a path lead to a file? -/
def hasFile (t : FileTree) (names : List String) : Bool :=
  match t.find names with
  | .ok (.file _) => true
  | _ => false

/-- The content of the file that a path leads to. -/
def read (t : FileTree) (names : List String) : Except AccessFailure ByteArray :=
  match t.find names with
  | .ok (.file bytes) => .ok bytes
  | .ok .special => .error .noDevice
  | .ok .closed => .error .denied
  | .ok _ => .error .isFolder
  | .error cause => .error cause

end FileTree

end CallAtlas
