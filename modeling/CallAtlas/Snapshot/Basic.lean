import CallAtlas.Graph.Basic
import CallAtlas.Graph.Resolution
import CallAtlas.Graph.Summary
import CallAtlas.Script.Language

/-!
# Snapshots

A **snapshot** holds every entity and every edge of a graph, so the graph can be
built again from it. Building checks everything a graph promises: distinct ids,
distinct edges between known entities, and degrees that count them.
-/

namespace CallAtlas

open Script (Language)

/-- One analysed source file. -/
structure FileRecord where
  path : String
  group : String
  language : Language
  /-- The hash of the text, in sixteen hexadecimal digits. -/
  contentHash : String
  /-- The entities found in the file, repeated ids included. -/
  entityCount : Nat
deriving DecidableEq, Repr, Inhabited

/-- A graph with what is known about it. -/
structure Snapshot where
  version : Nat
  /-- The path of the analysis root. -/
  root : Option String := none
  files : List FileRecord := []
  /-- In the order of the graph. -/
  entities : List Entity
  /-- In order of caller and callee. -/
  edges : List Edge
  summary : GraphSummary
  diagnostics : Option Diagnostics := none
deriving DecidableEq, Repr, Inhabited

/-- The version that snapshots are written in, and the only one that is read. -/
def snapshotVersion : Nat := 1

namespace Graph

/-- The snapshot of a graph. -/
def snapshot (g : Graph) : Snapshot where
  version := snapshotVersion
  entities := g.entities.toList
  edges := g.edges
  summary := g.summary

/-- The arena of entities whose ids must differ. -/
def arenaOf : Arena → List Entity → Except GraphFailure Arena
  | a, [] => .ok a
  | a, e :: es =>
      if a.contains e.id then .error (.invalidSnapshot ("duplicate entity id " ++ e.id))
      else arenaOf (a.insert e) es

/-- The graph with edges that must be new and join known entities. -/
def withEdges : Graph → List Edge → Except GraphFailure Graph
  | g, [] => .ok g
  | g, e :: es =>
      match g.insertEdge e.source e.target e.line with
      | .error _ =>
          .error (.invalidSnapshot
            ("edge " ++ e.source ++ " -> " ++ e.target ++ " has an unknown endpoint"))
      | .ok (g, true) => withEdges g es
      | .ok (_, false) =>
          .error (.invalidSnapshot ("duplicate edge " ++ e.source ++ " -> " ++ e.target))

/-- Checks that the degrees of some entities are those the graph counts. -/
def checkDegrees (g : Graph) : List Entity → Except GraphFailure Unit
  | [] => .ok ()
  | e :: es =>
      match g.get e.id with
      | .error failure => .error failure
      | .ok counted =>
          if counted.outDegree = e.outDegree ∧ counted.inDegree = e.inDegree then
            g.checkDegrees es
          else
            .error (.invalidSnapshot ("degrees of " ++ e.id ++ " do not match its edges"))

/-- The graph of a snapshot. -/
def ofSnapshot (s : Snapshot) : Except GraphFailure Graph :=
  if s.version ≠ snapshotVersion then .error (.snapshotVersion s.version snapshotVersion)
  else
    match arenaOf .empty s.entities with
    | .error failure => .error failure
    | .ok arena =>
        match (ofCatalog arena.freeze).withEdges s.edges with
        | .error failure => .error failure
        | .ok g =>
            match g.checkDegrees s.entities with
            | .error failure => .error failure
            | .ok () => .ok g

end Graph

end CallAtlas
