import CallAtlas.Failure
import CallAtlas.Graph.Resolution
import CallAtlas.Impact.Risk
import CallAtlas.Layout.Coordinate
import CallAtlas.Number.Decimal

/-!
# Settings of an analysis

The four sections of the settings, their standard values, and the checks that
settings from outside have to pass. `Settings.validate` reports the first check
that fails, in a fixed order.
-/

namespace CallAtlas

/-- Settings of the discovery of files. What is not set takes its standard
value. -/
structure ScanSettings where
  /-- Largest file that is read, in bytes. -/
  maxFileSize : Option Nat := none
  /-- Number of workers; answers do not depend on it. -/
  threads : Option Nat := none
  followSymlinks : Option Bool := none
  respectGitignore : Option Bool := none
  includeTests : Option Bool := none
  /-- Does broken text make a file fail? -/
  strictParse : Option Bool := none
  /-- Leading directories that form the group key. -/
  groupDepth : Option Nat := none
  /-- Leading directories that do not count towards the group key. -/
  groupSkipPrefixes : Option (List String) := none
  /-- Patterns of paths to leave out. -/
  extraIgnores : List String := []
deriving DecidableEq, Repr, Inhabited

namespace ScanSettings

/-- The largest file that is read, in bytes. -/
def sizeLimit (s : ScanSettings) : Nat := s.maxFileSize.getD 1048576

/-- The number of workers; zero leaves the choice to the machine. -/
def workers (s : ScanSettings) : Nat := s.threads.getD 0

/-- Are symbolic links followed? -/
def followsLinks (s : ScanSettings) : Bool := s.followSymlinks.getD false

/-- Is the ignore file of the version control honoured? -/
def honoursGitignore (s : ScanSettings) : Bool := s.respectGitignore.getD true

/-- Are tests part of the analysis? -/
def takesTests (s : ScanSettings) : Bool := s.includeTests.getD false

/-- Does broken text make a file fail? -/
def isStrict (s : ScanSettings) : Bool := s.strictParse.getD true

/-- How many directories form the group key. -/
def depth (s : ScanSettings) : Nat := s.groupDepth.getD 1

/-- The leading directories that do not count towards the group key. -/
def skipped (s : ScanSettings) : List String := s.groupSkipPrefixes.getD ["src"]

end ScanSettings

/-- Settings of an analysis. -/
structure Settings where
  scan : ScanSettings := {}
  policy : ResolutionPolicy := .allMatches
  impact : ImpactSettings := {}
  layout : LayoutSettings Float := .standard
deriving Inhabited

namespace LayoutSettings

variable {α : Type} [Coordinate α]

/-- The sizes of a layout with their names, in the order they are checked. -/
def sizes (l : LayoutSettings α) : List (String × α) :=
  [("layout.base_column_width", l.baseColumnWidth),
    ("layout.column_width_per_node", l.columnWidthPerNode),
    ("layout.max_column_width", l.maxColumnWidth),
    ("layout.group_gap", l.groupGap),
    ("layout.band_height", l.bandHeight),
    ("layout.band_gap", l.bandGap),
    ("layout.top_margin", l.topMargin),
    ("layout.left_margin", l.leftMargin),
    ("layout.min_node_spacing", l.minNodeSpacing)]

/-- Is this a size that can be drawn? -/
def isSize (finite : α → Bool) (x : α) : Bool :=
  finite x && !Coordinate.less x (Coordinate.ofNat 0)

/-- Why a layout cannot be drawn with these settings, if it cannot. Which numbers
are finite and how numbers are written depends on the kind of number. -/
def defect? (finite : α → Bool) (text : α → String) (l : LayoutSettings α) :
    Option SettingsFailure :=
  if l.maxNodesPerColumn = 0 then
    some (.rejected "layout.max_nodes_per_column" "must be at least 1")
  else if l.maxColumnsPerGroup = 0 then
    some (.rejected "layout.max_columns_per_group" "must be at least 1")
  else
    match l.sizes.find? (!isSize finite ·.2) with
    | some (field, value) =>
        some (.invalidValue field ("must be a finite non-negative number, got " ++ text value))
    | none =>
        if Coordinate.less l.maxColumnWidth l.baseColumnWidth then
          some (.rejected "layout.max_column_width"
            "must not be smaller than layout.base_column_width")
        else none

end LayoutSettings

namespace Settings

/-- Why settings cannot be used, if they cannot. -/
def defect? (s : Settings) : Option SettingsFailure :=
  match s.layout.defect? Float.isFinite Number.shortest with
  | some failure => some failure
  | none =>
      if s.impact.thresholds.highAbove < s.impact.thresholds.mediumAbove then
        some (.rejected "impact.thresholds" "medium_above must not exceed high_above")
      else if s.impact.cacheCapacity = 0 then
        some (.rejected "impact.cache_capacity" "must be at least 1")
      else if s.scan.groupDepth = some 0 then
        some (.rejected "scan.group_depth" "must be at least 1")
      else none

/-- Accepts settings that can be used. -/
def validate (s : Settings) : Except SettingsFailure Unit :=
  match s.defect? with
  | some failure => .error failure
  | none => .ok ()

end Settings

end CallAtlas
