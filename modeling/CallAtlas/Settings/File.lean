import CallAtlas.FileTree
import CallAtlas.Settings.Document
import CallAtlas.Text.Utf8

/-!
# Settings from a project's files

A project may hold a settings file in its root folder. Without one the standard
settings apply.
-/

namespace CallAtlas.Settings

/-- The names of settings files, the first that is there counting. -/
def fileNames : List String := ["stagemap.toml", ".stagemap.toml"]

/-- The settings in a file, whose path as it is shown is `shown`. -/
def ofFile (tree : FileTree) (names : List String) (shown : String) :
    Except SettingsFailure Settings :=
  if !tree.hasFile names then .error (.fileNotFound shown)
  else
    match tree.read names with
    | .error cause => .error (.malformed shown cause.message)
    | .ok bytes =>
        match Text.decode? bytes with
        | none => .error (.malformed shown "stream did not contain valid UTF-8")
        | some text => ofText shown text

/-- The settings of a project. -/
def ofProject (tree : FileTree) (folder : List String) (root : String) :
    Except SettingsFailure Settings :=
  match fileNames.find? fun name => tree.hasFile (folder ++ [name]) with
  | none => .ok {}
  | some name => ofFile tree (folder ++ [name]) (root ++ "/" ++ name)

end CallAtlas.Settings
