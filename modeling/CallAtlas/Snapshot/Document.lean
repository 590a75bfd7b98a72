import CallAtlas.Json.Printer
import CallAtlas.Json.Reader
import CallAtlas.Snapshot.Basic

/-!
# Snapshots as documents

A snapshot is kept as a JSON document. Writing is `Snapshot.toText`, reading is
`Snapshot.ofText`, and reading what was written gives the snapshot back.

Reading is lenient where nothing can be lost: members may come in any order,
unknown ones are ignored, and a record may be given as the list of its values. A
known member that is given twice, or a value of the wrong type, makes the whole
document unreadable.
-/

namespace CallAtlas

/-! ### Writing -/

/-- A list of texts. -/
def textsJson (texts : List String) : Json := .array (texts.map .string)

/-- A member that is left out where there is no value. -/
def optionalMember (name : String) (value : Option Json) : List (String × Json) :=
  match value with
  | some v => [(name, v)]
  | none => []

/-- An entity as a document. -/
def Entity.toJson (e : Entity) : Json := .object [
  ("id", .string e.id),
  ("name", .string e.name),
  ("file_path", .string e.filePath),
  ("group", .string e.group),
  ("kind", .string e.kind.name),
  ("start_line", .ofNat e.startLine),
  ("end_line", .ofNat e.endLine),
  ("parameters", textsJson e.parameters),
  ("out_degree", .ofNat e.outDegree),
  ("in_degree", .ofNat e.inDegree)]

/-- An edge as a document. -/
def Edge.toJson (e : Edge) : Json := .object [
  ("source", .string e.source),
  ("target", .string e.target),
  ("call_site_line", .ofNat e.line)]

/-- A histogram as a document. -/
def ComplexityHistogram.toJson (h : ComplexityHistogram) : Json := .object [
  ("zero", .ofNat h.zero),
  ("low", .ofNat h.low),
  ("medium", .ofNat h.medium),
  ("high", .ofNat h.high),
  ("very_high", .ofNat h.veryHigh)]

/-- A summary as a document. -/
def GraphSummary.toJson (s : GraphSummary) : Json := .object [
  ("entity_count", .ofNat s.entityCount),
  ("edge_count", .ofNat s.edgeCount),
  ("file_count", .ofNat s.fileCount),
  ("group_count", .ofNat s.groupCount),
  ("root_count", .ofNat s.rootCount),
  ("leaf_count", .ofNat s.leafCount),
  ("self_call_count", .ofNat s.selfCallCount),
  ("max_out_degree", .ofNat s.maxOutDegree),
  ("max_in_degree", .ofNat s.maxInDegree),
  ("complexity", s.complexity.toJson)]

/-- Diagnostics as a document. -/
def Diagnostics.toJson (d : Diagnostics) : Json := .object [
  ("total_call_sites", .ofNat d.totalCallSites),
  ("resolved", .ofNat d.resolved),
  ("unresolved", .ofNat d.unresolved),
  ("ambiguous", .ofNat d.ambiguous),
  ("uncontained", .ofNat d.uncontained),
  ("dynamic", .ofNat d.dynamic),
  ("edges_inserted", .ofNat d.edgesInserted),
  ("duplicate_edges", .ofNat d.duplicateEdges)]

/-- The record of a file as a document. -/
def FileRecord.toJson (f : FileRecord) : Json := .object [
  ("path", .string f.path),
  ("group", .string f.group),
  ("language", .string f.language.name),
  ("content_hash", .string f.contentHash),
  ("entity_count", .ofNat f.entityCount)]

namespace Snapshot

/-- A snapshot as a document. -/
def toJson (s : Snapshot) : Json := .object (
  [("version", .ofNat s.version)] ++
  optionalMember "root" (s.root.map .string) ++
  [("files", .array (s.files.map FileRecord.toJson)),
    ("entities", .array (s.entities.map Entity.toJson)),
    ("edges", .array (s.edges.map Edge.toJson)),
    ("summary", s.summary.toJson)] ++
  optionalMember "diagnostics" (s.diagnostics.map Diagnostics.toJson))

/-- A snapshot as text. -/
def toText (s : Snapshot) : String := s.toJson.pretty

end Snapshot

/-! ### Reading -/

namespace Json

/-- The members of a record with given names. A document that gives the values
alone gives them in the order of the names. -/
def record? (names : List String) : Json → Option (List (String × Json))
  | object members =>
      if names.all fun name => members.countP (·.1 == name) ≤ 1 then some members else none
  | array items => if items.length ≤ names.length then some (names.zip items) else none
  | _ => none

/-- The value of a member. -/
def member? (members : List (String × Json)) (name : String) : Option Json :=
  (members.find? (·.1 == name)).map (·.2)

/-- A member that must be there, decoded. -/
def required {α : Type} (members : List (String × Json)) (name : String)
    (decode : Json → Option α) : Option α :=
  (member? members name).bind decode

/-- A member that may be missing or null, decoded. -/
def optional {α : Type} (members : List (String × Json)) (name : String)
    (decode : Json → Option α) : Option (Option α) :=
  match member? members name with
  | none => some none
  | some null => some none
  | some v => (decode v).map some

/-- A natural number below a bound. -/
def natBelow? (bound : Nat) (j : Json) : Option Nat :=
  match j.toNat? with
  | some n => if n < bound then some n else none
  | none => none

/-- A natural number of 32 bits. -/
def nat32? : Json → Option Nat := natBelow? (Nat.pow 2 32)

/-- A natural number of 64 bits. -/
def nat64? : Json → Option Nat := natBelow? (Nat.pow 2 64)

/-- A list of values of one kind. -/
def listOf? {α : Type} (decode : Json → Option α) : Json → Option (List α)
  | array items => items.mapM decode
  | _ => none

/-- A word of a fixed vocabulary, alone or as the only member of an object with
nothing in it. -/
def word? {α : Type} (ofName? : String → Option α) : Json → Option α
  | string s => ofName? s
  | object [(s, null)] => ofName? s
  | _ => none

end Json

/-- The entity a document describes. -/
def Entity.ofJson? (j : Json) : Option Entity := do
  let ms ← j.record? ["id", "name", "file_path", "group", "kind", "start_line", "end_line",
    "parameters", "out_degree", "in_degree"]
  return {
    id := ← Json.required ms "id" Json.toString?
    name := ← Json.required ms "name" Json.toString?
    filePath := ← Json.required ms "file_path" Json.toString?
    group := ← Json.required ms "group" Json.toString?
    kind := ← Json.required ms "kind" (Json.word? EntityKind.ofName?)
    startLine := ← Json.required ms "start_line" Json.nat32?
    endLine := ← Json.required ms "end_line" Json.nat32?
    parameters := ← Json.required ms "parameters" (Json.listOf? Json.toString?)
    outDegree := ← Json.required ms "out_degree" Json.nat64?
    inDegree := ← Json.required ms "in_degree" Json.nat64? }

/-- The edge a document describes. -/
def Edge.ofJson? (j : Json) : Option Edge := do
  let ms ← j.record? ["source", "target", "call_site_line"]
  return {
    source := ← Json.required ms "source" Json.toString?
    target := ← Json.required ms "target" Json.toString?
    line := ← Json.required ms "call_site_line" Json.nat32? }

/-- The histogram a document describes. -/
def ComplexityHistogram.ofJson? (j : Json) : Option ComplexityHistogram := do
  let ms ← j.record? ["zero", "low", "medium", "high", "very_high"]
  return {
    zero := ← Json.required ms "zero" Json.nat64?
    low := ← Json.required ms "low" Json.nat64?
    medium := ← Json.required ms "medium" Json.nat64?
    high := ← Json.required ms "high" Json.nat64?
    veryHigh := ← Json.required ms "very_high" Json.nat64? }

/-- The summary a document describes. -/
def GraphSummary.ofJson? (j : Json) : Option GraphSummary := do
  let ms ← j.record? ["entity_count", "edge_count", "file_count", "group_count", "root_count",
    "leaf_count", "self_call_count", "max_out_degree", "max_in_degree", "complexity"]
  return {
    entityCount := ← Json.required ms "entity_count" Json.nat64?
    edgeCount := ← Json.required ms "edge_count" Json.nat64?
    fileCount := ← Json.required ms "file_count" Json.nat64?
    groupCount := ← Json.required ms "group_count" Json.nat64?
    rootCount := ← Json.required ms "root_count" Json.nat64?
    leafCount := ← Json.required ms "leaf_count" Json.nat64?
    selfCallCount := ← Json.required ms "self_call_count" Json.nat64?
    maxOutDegree := ← Json.required ms "max_out_degree" Json.nat64?
    maxInDegree := ← Json.required ms "max_in_degree" Json.nat64?
    complexity := ← Json.required ms "complexity" ComplexityHistogram.ofJson? }

/-- The diagnostics a document describes. -/
def Diagnostics.ofJson? (j : Json) : Option Diagnostics := do
  let ms ← j.record? ["total_call_sites", "resolved", "unresolved", "ambiguous", "uncontained",
    "dynamic", "edges_inserted", "duplicate_edges"]
  return {
    totalCallSites := ← Json.required ms "total_call_sites" Json.nat64?
    resolved := ← Json.required ms "resolved" Json.nat64?
    unresolved := ← Json.required ms "unresolved" Json.nat64?
    ambiguous := ← Json.required ms "ambiguous" Json.nat64?
    uncontained := ← Json.required ms "uncontained" Json.nat64?
    dynamic := ← Json.required ms "dynamic" Json.nat64?
    edgesInserted := ← Json.required ms "edges_inserted" Json.nat64?
    duplicateEdges := ← Json.required ms "duplicate_edges" Json.nat64? }

/-- The record of a file a document describes. -/
def FileRecord.ofJson? (j : Json) : Option FileRecord := do
  let ms ← j.record? ["path", "group", "language", "content_hash", "entity_count"]
  return {
    path := ← Json.required ms "path" Json.toString?
    group := ← Json.required ms "group" Json.toString?
    language := ← Json.required ms "language" (Json.word? Script.Language.ofName?)
    contentHash := ← Json.required ms "content_hash" Json.toString?
    entityCount := ← Json.required ms "entity_count" Json.nat64? }

namespace Snapshot

/-- The files a document lists; without a list there are none. -/
def filesOf? (ms : List (String × Json)) : Option (List FileRecord) :=
  match Json.member? ms "files" with
  | none => some []
  | some v => Json.listOf? FileRecord.ofJson? v

/-- The snapshot a document describes, in whatever version. -/
def ofJson? (j : Json) : Option Snapshot := do
  let ms ← j.record? ["version", "root", "files", "entities", "edges", "summary", "diagnostics"]
  return {
    version := ← Json.required ms "version" Json.nat32?
    root := ← Json.optional ms "root" Json.toString?
    files := ← filesOf? ms
    entities := ← Json.required ms "entities" (Json.listOf? Entity.ofJson?)
    edges := ← Json.required ms "edges" (Json.listOf? Edge.ofJson?)
    summary := ← Json.required ms "summary" GraphSummary.ofJson?
    diagnostics := ← Json.optional ms "diagnostics" Diagnostics.ofJson? }

/-- Reads a snapshot. Its version is looked at after everything else has been
read. -/
def ofText (text : String) : Except GraphFailure Snapshot :=
  match (Json.parse? text).bind ofJson? with
  | none => .error (.invalidSnapshot "not a snapshot document")
  | some s =>
      if s.version = snapshotVersion then .ok s
      else .error (.snapshotVersion s.version snapshotVersion)

end Snapshot

end CallAtlas
