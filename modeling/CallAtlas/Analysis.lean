import CallAtlas.Discovery
import CallAtlas.Graph.Construction
import CallAtlas.Layout.Engine
import CallAtlas.Script.SourceText
import CallAtlas.Snapshot.Basic
import CallAtlas.Text.Utf8

/-!
# Analysing a project

Discover the files, read each of them, collect their entities, and resolve their
calls. A file that cannot be read is recorded and left out; only settings that
make no sense, a root that is no folder, or a bad ignore pattern stop the whole
analysis.

Meanwhile **events** are sent, in the order they happen. Files are read side by
side, so the order in which they are reported is left open; nothing else depends
on it.
-/

namespace CallAtlas

open Script (ParsedFile)

namespace DiscoveredFile

/-- Reads and parses a file. `names` is its path from the top of the tree, and
`shown` that path as failures show it. -/
def parse (file : DiscoveredFile) (tree : FileTree) (names : List String) (shown : String)
    (limit : Nat) (strict : Bool) : Except ReadFailure ParsedFile :=
  if limit < file.size then .error (.tooLarge file.path file.size limit)
  else
    match tree.read names with
    | .error cause => .error (.unreadable shown cause.message)
    | .ok bytes =>
        ParsedFile.ofText strict file.path file.group file.language (Text.decodeLossy bytes)

end DiscoveredFile

/-- What happens during an analysis. -/
inductive Event where
  | scanStarted (fileCount : Option Nat)
  | fileParsed (path : String) (entityCount : Nat)
  | fileFailed (path : String) (cause : ReadFailure)
  | scanComplete (discovered parsed failed entityCount : Nat)
  | graphBuilt (entityCount edgeCount unresolved : Nat)
  | layoutComplete (groupCount stageCount : Nat) (crossingCount : Option Nat)
deriving DecidableEq, Repr

/-- A file that was found but could not be read. -/
structure FileFailure where
  path : String
  cause : ReadFailure
deriving DecidableEq, Repr

/-- Counts over an analysis. -/
structure AnalysisStats where
  scan : ScanStats
  filesParsed : Nat
  filesFailed : Nat
  entityCount : Nat
  /-- Entities that were dropped because their id was taken. -/
  duplicateEntities : Nat
  edgeCount : Nat
deriving DecidableEq, Repr, Inhabited

/-- The result of an analysis. -/
structure Analysis where
  /-- The path of the root as it is shown. -/
  root : String
  graph : Graph
  /-- The files that were read, by path. -/
  files : List FileRecord
  /-- The files that were not, by path. -/
  failures : List FileFailure
  diagnostics : Diagnostics
  stats : AnalysisStats
deriving Inhabited

/-- The record of a file that was read. -/
def FileRecord.ofParsed (file : ParsedFile) : FileRecord where
  path := file.path
  group := file.group
  language := file.language
  contentHash := file.hashText
  entityCount := file.entities.length

/-- What became of one discovered file. -/
abbrev ParseOutcome := DiscoveredFile × Except ReadFailure ParsedFile

/-- The event that reports it. -/
def ParseOutcome.event : ParseOutcome → Event
  | (_, .ok parsed) => .fileParsed parsed.path parsed.entities.length
  | (file, .error cause) => .fileFailed file.path cause

/-- Files are read side by side; this is the order in which they are done. -/
structure Schedule where
  order : List ParseOutcome → List ParseOutcome
  perm : ∀ outcomes, (order outcomes).Perm outcomes

/-- One file after the other. -/
def Schedule.inTurn : Schedule := ⟨id, fun _ => .refl _⟩

/-- A part of an analysis: it sends events and may fail. -/
abbrev Reporting := ExceptT AnalysisFailure (StateM (Array Event))

namespace Reporting

/-- Sends an event. -/
def send (e : Event) : Reporting Unit := modify (·.push e)

/-- What comes of a task after some events, and the events sent by then. -/
def exec {α : Type} (x : Reporting α) (sent : Array Event) :
    Except AnalysisFailure α × Array Event :=
  x.run.run sent

end Reporting

/-- What has been collected of the files that were read. -/
structure Intake where
  arena : Arena := .empty
  parsed : Array ParsedFile := #[]
  records : Array FileRecord := #[]
  failures : Array FileFailure := #[]

namespace Intake

/-- Adds what became of one file. -/
def add (i : Intake) : ParseOutcome → Intake
  | (_, .ok file) =>
      { i with
        records := i.records.push (.ofParsed file)
        arena := i.arena.insertAll file.entities
        parsed := i.parsed.push file }
  | (file, .error cause) => { i with failures := i.failures.push { path := file.path, cause } }

/-- Collects the results for some files, one result for each. -/
def ofResults (files : List DiscoveredFile) (results : List (Except ReadFailure ParsedFile)) :
    Intake :=
  (files.zip results).foldl add {}

/-- The analysis of what has been collected. -/
def analysis (i : Intake) (root : String) (policy : ResolutionPolicy) (scan : ScanStats) :
    Analysis :=
  let (graph, diagnostics) := Graph.build i.arena.freeze policy i.parsed.toList
  let stats : AnalysisStats :=
    { scan, filesParsed := i.parsed.size, filesFailed := i.failures.size,
      entityCount := graph.entityCount, duplicateEntities := i.arena.duplicates,
      edgeCount := graph.edgeCount }
  { root, graph, files := i.records.toList, failures := i.failures.toList, diagnostics, stats }

end Intake

/-- Reads a discovered file. -/
def Scanner.parse (s : Scanner) (settings : ScanSettings) (file : DiscoveredFile) :
    Except ReadFailure ParsedFile :=
  file.parse s.tree (s.folder ++ Path.segments file.path) (s.root ++ "/" ++ file.path)
    settings.sizeLimit settings.isStrict

namespace Analysis

open Reporting (send)

/-- Reads every discovered file. The results come in the order of the files, the
events as the files are done. -/
def parseAll (s : Scanner) (settings : ScanSettings) (schedule : Schedule)
    (files : List DiscoveredFile) : Reporting (List (Except ReadFailure ParsedFile)) := do
  let results := files.map (s.parse settings)
  (schedule.order (files.zip results)).forM fun outcome => send outcome.event
  return results

/-- Reads the files that were discovered and builds their graph. -/
def process (s : Scanner) (settings : ScanSettings) (policy : ResolutionPolicy)
    (schedule : Schedule) (discovered : List DiscoveredFile) (scan : ScanStats) :
    Reporting Analysis := do
  let results ← parseAll s settings schedule discovered
  let intake := Intake.ofResults discovered results
  send (.scanComplete discovered.length intake.parsed.size intake.failures.size
    intake.arena.size)
  let a := intake.analysis s.root policy scan
  send (.graphBuilt a.stats.entityCount a.stats.edgeCount a.diagnostics.unresolved)
  return a

/-- Discovers the files of a folder and analyses them. -/
def explore (tree : FileTree) (folder : List String) (root : String) (scan : ScanSettings)
    (policy : ResolutionPolicy) (schedule : Schedule) : Reporting Analysis := do
  match Scanner.make tree folder root scan with
  | .error cause => throw (.scan cause)
  | .ok scanner =>
      send (.scanStarted none)
      let (discovered, stats) := scanner.discover
      process scanner scan policy schedule discovered stats

/-- Analyses the folder of a tree whose path as it is shown is `root`. -/
def perform (tree : FileTree) (folder : List String) (root : String) (settings : Settings)
    (schedule : Schedule) : Reporting Analysis := do
  match settings.validate with
  | .error cause => throw (.settings cause)
  | .ok () => explore tree folder root settings.scan settings.policy schedule

/-- The analysis of a folder with its events, one file read after the other. -/
def run (tree : FileTree) (folder : List String) (root : String) (settings : Settings) :
    Except AnalysisFailure (Analysis × List Event) :=
  match (perform tree folder root settings .inTurn).exec #[] with
  | (.ok analysis, events) => .ok (analysis, events.toList)
  | (.error cause, _) => .error cause

/-- The snapshot of an analysis, with its files and diagnostics. -/
def snapshot (a : Analysis) : Snapshot :=
  { a.graph.snapshot with
    root := some a.root, files := a.files, diagnostics := some a.diagnostics }

/-- The layout of an analysis, and the event that reports it, unless the run stops. -/
def layout? (a : Analysis) (settings : LayoutSettings Float) : Option (Layout Float × Event) := do
  let l ← a.graph.runLayout? settings
  return (l, .layoutComplete l.metrics.groupCount l.metrics.stageCount l.metrics.crossingCount)

end Analysis

end CallAtlas
