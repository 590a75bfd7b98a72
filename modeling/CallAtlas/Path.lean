import CallAtlas.Text.Split

/-!
# Paths

Forward-slash paths: their components, the last component's extension, and the
group key that clusters files by directory.
-/

namespace CallAtlas.Path

/-- The pieces between slashes that name something: empty pieces and the piece
`.` name nothing. -/
def segments (path : String) : List String :=
  (Text.split '/' path).filter fun s => !s.isEmpty && s != "."

/-- The components of a path as a walker sees them: a leading `.` is a component
of its own, every other `.` and every empty piece is dropped. -/
def components (path : String) : List String :=
  match Text.split '/' path with
  | "." :: rest => "." :: (rest.filter fun s => !s.isEmpty && s != ".")
  | pieces => pieces.filter fun s => !s.isEmpty && s != "."

/-- The name of the file a path leads to: its last component, unless that only
points at the current or the parent directory. -/
def fileName? (path : String) : Option String :=
  match (components path).getLast? with
  | some "." => none
  | some ".." => none
  | last => last

/-- The part of a name after its last dot. A name whose only dot comes first, or
that has no dot, has none. -/
def extensionOfName? (name : String) : Option String :=
  let reversed := name.toList.reverse
  match reversed.dropWhile (· != '.') with
  | [] => none
  | _ :: stem =>
      if stem.isEmpty then none else some (String.ofList (reversed.takeWhile (· != '.')).reverse)

/-- The extension of the file a path leads to. -/
def extension? (path : String) : Option String :=
  (fileName? path).bind extensionOfName?

/-- The group of files that lie in no directory of their own. -/
def rootGroup : String := "."

/-- The group key of a relative path. The file's own name never counts; leading
directories named in `skipped` are dropped, and of those that remain the first
`depth` are joined. -/
def groupOf (path : String) (depth : Nat) (skipped : List String) : String :=
  let directories := (segments path).dropLast.dropWhile (skipped.contains ·)
  if directories.isEmpty || depth == 0 then rootGroup
  else "/".intercalate (directories.take depth)

end CallAtlas.Path
