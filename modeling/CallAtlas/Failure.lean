import CallAtlas.Text.Quoted

/-!
# What can go wrong

One type per stage of an analysis, one constructor per cause. Every failure has
a *code*, which is stable and coarse, and a *message* for people; `coded` joins
the two.
-/

namespace CallAtlas

/-- A stable text for each coarse kind of failure. -/
class Coded (ε : Type) where
  code : ε → String
  message : ε → String

/-- The code in brackets and the message. -/
def Coded.coded {ε : Type} [Coded ε] (e : ε) : String :=
  "[" ++ Coded.code e ++ "] " ++ Coded.message e

/-- Why files could not be discovered. -/
inductive ScanFailure where
  /-- The analysis root is missing or no directory: the path and the reason. -/
  | rootUnreadable (path reason : String)
  /-- A configured ignore pattern makes no sense. -/
  | invalidIgnorePattern (pattern reason : String)
deriving DecidableEq, Repr

instance : Coded ScanFailure where
  code
    | .rootUnreadable .. => "ROOT_UNREADABLE"
    | .invalidIgnorePattern .. => "SCAN_ERROR"
  message
    | .rootUnreadable path reason =>
        "Root path is not a readable directory: " ++ path ++ ": " ++ reason
    | .invalidIgnorePattern pattern reason =>
        "Invalid ignore pattern " ++ Text.quoted pattern ++ ": " ++ reason

/-- Why one source file could not be read. -/
inductive ReadFailure where
  | unreadable (path reason : String)
  | tooLarge (path : String) (size limit : Nat)
  | unsupportedExtension (extension : String)
  | grammarUnavailable (language reason : String)
  | noTree (path reason : String)
  /-- The text does not follow the grammar; `count` says in how many places. -/
  | brokenText (path : String) (count : Nat)
deriving DecidableEq, Repr

namespace ReadFailure

/-- The path of the file, where the failure is tied to one. -/
def path? : ReadFailure → Option String
  | unreadable path _ => some path
  | tooLarge path _ _ => some path
  | noTree path _ => some path
  | brokenText path _ => some path
  | unsupportedExtension _ => none
  | grammarUnavailable _ _ => none

end ReadFailure

instance : Coded ReadFailure where
  code
    | .unsupportedExtension _ => "UNSUPPORTED_LANGUAGE"
    | _ => "PARSE_ERROR"
  message
    | .unreadable path reason => "IO error reading " ++ path ++ ": " ++ reason
    | .tooLarge path size limit =>
        "File too large: " ++ path ++ " (" ++ toString size ++ " bytes, max " ++ toString limit ++ ")"
    | .unsupportedExtension extension => "Unsupported extension: " ++ extension
    | .grammarUnavailable language reason =>
        "Failed to load grammar for " ++ language ++ ": " ++ reason
    | .noTree path reason => "Tree-sitter error parsing " ++ path ++ ": " ++ reason
    | .brokenText path count => toString count ++ " syntax error(s) in " ++ path

/-- Why a question about a graph has no answer, or a snapshot gives no graph. -/
inductive GraphFailure where
  | entityNotFound (id : String)
  | invalidSnapshot (reason : String)
  | snapshotVersion (found expected : Nat)
deriving DecidableEq, Repr

instance : Coded GraphFailure where
  code
    | .entityNotFound _ => "ENTITY_NOT_FOUND"
    | .invalidSnapshot _ => "SNAPSHOT_ERROR"
    | .snapshotVersion .. => "SNAPSHOT_ERROR"
  message
    | .entityNotFound id => "Entity not found: " ++ id
    | .invalidSnapshot reason => "Invalid snapshot: " ++ reason
    | .snapshotVersion found expected =>
        "Snapshot version " ++ toString found ++ " is not supported (expected " ++
          toString expected ++ ")"

/-- Why settings could not be loaded. -/
inductive SettingsFailure where
  | fileNotFound (path : String)
  | malformed (path reason : String)
  | rejected (field reason : String)
  | invalidValue (field reason : String)
deriving DecidableEq, Repr

instance : Coded SettingsFailure where
  code _ := "CONFIG_ERROR"
  message
    | .fileNotFound path => "Config file not found: " ++ path
    | .malformed path reason => "Config parse error in " ++ path ++ ": " ++ reason
    | .rejected field reason => "Config validation failed for " ++ field ++ ": " ++ reason
    | .invalidValue field reason => "Invalid config value for " ++ field ++ ": " ++ reason

/-- Why a whole analysis could not be made. -/
inductive AnalysisFailure where
  | scan (cause : ScanFailure)
  | settings (cause : SettingsFailure)
deriving DecidableEq, Repr

instance : Coded AnalysisFailure where
  code
    | .scan cause => Coded.code cause
    | .settings cause => Coded.code cause
  message
    | .scan cause => Coded.message cause
    | .settings cause => Coded.message cause

end CallAtlas
