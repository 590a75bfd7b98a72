import CallAtlas.Settings.Basic
import CallAtlas.Toml.Reader

/-!
# Settings from a document

Settings are written as a TOML document with one table per section. Every key
may be missing and unknown keys are ignored, but a value of the wrong type makes
the whole document unusable. A section may also be written as an array of its
values in order.
-/

namespace CallAtlas.Settings

/-- Reads a value out of a document's value. -/
abbrev Decoder (α : Type) := Toml → Option α

namespace Decoder

/-- A truth value. -/
def bool : Decoder Bool
  | .boolean b => some b
  | _ => none

/-- A natural number below a bound. -/
def natBelow (bound : Nat) : Decoder Nat
  | .integer n => if 0 ≤ n && n < bound then some n.toNat else none
  | _ => none

/-- A natural number of 64 bits. -/
def nat : Decoder Nat := natBelow (Nat.pow 2 64)

/-- A size: a double, or a whole number taken as one. -/
def size : Decoder Float
  | .float x => some x
  | .integer n => some (Float.ofInt n)
  | _ => none

/-- A text. -/
def text : Decoder String
  | .string s => some s
  | _ => none

/-- A list of texts. -/
def texts : Decoder (List String)
  | .array items => items.mapM text
  | _ => none

/-- Is there nothing in the value? -/
def isHollow : Toml → Bool
  | .array items => items.isEmpty
  | .table _ entries => entries.isEmpty
  | .tables elements => elements.isEmpty
  | _ => false

/-- A word of a fixed vocabulary, alone or as the key of something empty. In
braces it must be the only key. -/
def wordOf {α : Type} (ofName? : String → Option α) : Decoder α
  | .string s => ofName? s
  | .table origin ((s, v) :: rest) =>
      if isHollow v && (origin != .inline || rest.isEmpty) then ofName? s else none
  | _ => none

end Decoder

/-- The field of a section with a given place and name, decoded; a field that is
missing takes the given value, and `none` says that the section or the field has
the wrong type. -/
def field {α : Type} (section' : Toml) (index : Nat) (name : String) (decode : Decoder α)
    (missing : α) : Option α :=
  match section' with
  | .table _ entries =>
      match Toml.lookup name entries with
      | some v => decode v
      | none => some missing
  | .array items =>
      match items[index]? with
      | some v => decode v
      | none => some missing
  | .tables elements =>
      match elements[index]? with
      | some es => decode (.table .header es)
      | none => some missing
  | _ => none

/-- A field that has no value of its own when it is missing. -/
def optionalField {α : Type} (section' : Toml) (index : Nat) (name : String)
    (decode : Decoder α) : Option (Option α) :=
  field section' index name (fun v => (decode v).map some) none

/-- The settings of the discovery. -/
def scanOf : Decoder ScanSettings := fun v => do
  return {
    maxFileSize := ← optionalField v 0 "max_file_size" .nat
    threads := ← optionalField v 1 "threads" .nat
    followSymlinks := ← optionalField v 2 "follow_symlinks" .bool
    respectGitignore := ← optionalField v 3 "respect_gitignore" .bool
    includeTests := ← optionalField v 4 "include_tests" .bool
    strictParse := ← optionalField v 5 "strict_parse" .bool
    groupDepth := ← optionalField v 6 "group_depth" .nat
    groupSkipPrefixes := ← optionalField v 7 "group_skip_prefixes" .texts
    extraIgnores := ← field v 8 "extra_ignores" .texts [] }

/-- The policy of the resolution. -/
def policyOf : Decoder ResolutionPolicy := fun v =>
  field v 0 "policy" (.wordOf ResolutionPolicy.ofName?) .allMatches

/-- The thresholds of the risk levels. -/
def thresholdsOf : Decoder RiskThresholds := fun v => do
  return {
    highAbove := ← field v 0 "high_above" .nat 10
    mediumAbove := ← field v 1 "medium_above" .nat 5 }

/-- The rule for entry points, chosen by its `kind`. As an array it starts with
the kind. -/
def entryPointOf : Decoder EntryPointRule
  | .table _ entries => do
      match ← (Toml.lookup "kind" entries).bind Decoder.text with
      | "no_callers" => some .noCallers
      | "named_roots" =>
          let patterns ← (Toml.lookup "patterns" entries).bind Decoder.texts
          return .namedRoots patterns
      | _ => none
  | .array (kind :: rest) => do
      match ← Decoder.text kind, rest with
      | "no_callers", _ => some .noCallers
      | "named_roots", [patterns] => return .namedRoots (← Decoder.texts patterns)
      | _, _ => none
  | _ => none

/-- The settings of the impact analysis. -/
def impactOf : Decoder ImpactSettings := fun v => do
  return {
    thresholds := ← field v 0 "thresholds" thresholdsOf {}
    basis := ← field v 1 "basis" (.wordOf RiskBasis.ofName?) .upstream
    escalateOnEntryPoint := ← field v 2 "escalate_on_entry_point" .bool true
    entryPoint := ← field v 3 "entry_point" entryPointOf .noCallers
    maxDepth := ← optionalField v 4 "max_depth" (.natBelow (Nat.pow 2 32))
    cacheCapacity := ← field v 5 "cache_capacity" .nat 1024 }

/-- The settings of the layout. -/
def layoutOf : Decoder (LayoutSettings Float) := fun v => do
  let d : LayoutSettings Float := .standard
  return {
    maxNodesPerColumn := ← field v 0 "max_nodes_per_column" .nat d.maxNodesPerColumn
    maxColumnsPerGroup := ← field v 1 "max_columns_per_group" .nat d.maxColumnsPerGroup
    baseColumnWidth := ← field v 2 "base_column_width" .size d.baseColumnWidth
    columnWidthPerNode := ← field v 3 "column_width_per_node" .size d.columnWidthPerNode
    maxColumnWidth := ← field v 4 "max_column_width" .size d.maxColumnWidth
    groupGap := ← field v 5 "group_gap" .size d.groupGap
    bandHeight := ← field v 6 "band_height" .size d.bandHeight
    bandGap := ← field v 7 "band_gap" .size d.bandGap
    topMargin := ← field v 8 "top_margin" .size d.topMargin
    leftMargin := ← field v 9 "left_margin" .size d.leftMargin
    minNodeSpacing := ← field v 10 "min_node_spacing" .size d.minNodeSpacing
    crossingMaxPasses := ← field v 11 "crossing_max_passes" .nat d.crossingMaxPasses
    crossingEdgeLimit := ← field v 12 "crossing_edge_limit" .nat d.crossingEdgeLimit }

/-- The settings a document states. -/
def ofToml? (entries : List (String × Toml)) : Option Settings := do
  let v : Toml := .table .header entries
  return {
    scan := ← field v 0 "scan" scanOf {}
    policy := ← field v 1 "resolution" policyOf .allMatches
    impact := ← field v 2 "impact" impactOf {}
    layout := ← field v 3 "layout" layoutOf .standard }

/-- The settings that a text states, checked. `path` names the text in
failures. -/
def ofText (path text : String) : Except SettingsFailure Settings :=
  match (Toml.parse? text).bind ofToml? with
  | none => .error (.malformed path "not a settings document")
  | some s =>
      match s.defect? with
      | some failure => .error failure
      | none => .ok s

/-- The name of a text that does not come from a file. -/
def inlineLabel : String := "<inline>"

end CallAtlas.Settings
