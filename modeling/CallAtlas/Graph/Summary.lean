import CallAtlas.Graph.Basic
import CallAtlas.Impact.Complexity

/-!
# Summaries of a graph
-/

namespace CallAtlas

/-- Counts over a whole graph. -/
structure GraphSummary where
  entityCount : Nat := 0
  edgeCount : Nat := 0
  fileCount : Nat := 0
  groupCount : Nat := 0
  /-- Entities nobody calls. -/
  rootCount : Nat := 0
  /-- Entities that call nothing. -/
  leafCount : Nat := 0
  /-- Entities that call themselves. -/
  selfCallCount : Nat := 0
  maxOutDegree : Nat := 0
  maxInDegree : Nat := 0
  complexity : ComplexityHistogram := {}
deriving DecidableEq, Repr, Inhabited

/-- The summary of a graph. -/
def Graph.summary (g : Graph) : GraphSummary :=
  let es := g.entities.toList
  { entityCount := g.entityCount
    edgeCount := g.edgeCount
    fileCount := (distinctSorted (es.map (·.filePath))).length
    groupCount := (distinctSorted (es.map (·.group))).length
    rootCount := es.countP (·.inDegree == 0)
    leafCount := es.countP (·.outDegree == 0)
    selfCallCount := g.links.toList.countP fun l => l.source == l.target
    maxOutDegree := es.foldl (fun m e => max m e.outDegree) 0
    maxInDegree := es.foldl (fun m e => max m e.inDegree) 0
    complexity := .ofOutDegrees (es.map (·.outDegree)) }

end CallAtlas
