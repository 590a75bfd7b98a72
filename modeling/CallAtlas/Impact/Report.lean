import CallAtlas.Graph.Reachability
import CallAtlas.Graph.Summary
import CallAtlas.Impact.Risk

/-!
# Impact of a change

Questions about one entity of a finished graph: what depends on it, what it
depends on, how complex it is and how risky it is to change. Answers depend on
the graph and the settings alone.
-/

namespace CallAtlas

/-- What is known about the consequences of changing an entity. -/
structure ImpactReport where
  entityId : String
  directCallers : List String
  directCallees : List String
  /-- Everything that calls the entity, directly or not, by id. -/
  ancestors : List String
  /-- Everything the entity calls, directly or not, by id. -/
  descendants : List String
  /-- The ancestors that are entry points. -/
  entryPointAncestors : List String
  risk : RiskAssessment
  complexity : Complexity
deriving DecidableEq, Repr, Inhabited

namespace Graph

/-- The entities reached from a position, by id. -/
def transitiveAt (g : Graph) (s : ImpactSettings) (direction : Direction) (i : Nat) :
    List Entity :=
  (g.sortedById (g.reachable direction s.maxDepth i)).map g.node

/-- The entities reached from an entity, by id. -/
def transitive (g : Graph) (s : ImpactSettings) (direction : Direction) (id : String) :
    Except GraphFailure (List Entity) :=
  (g.locate id).map (g.transitiveAt s direction)

/-- Everything that calls an entity, directly or not. -/
def ancestors (g : Graph) (s : ImpactSettings) (id : String) : Except GraphFailure (List Entity) :=
  g.transitive s .upstream id

/-- Everything an entity calls, directly or not. -/
def descendants (g : Graph) (s : ImpactSettings) (id : String) :
    Except GraphFailure (List Entity) :=
  g.transitive s .downstream id

/-- The risk of changing the entity at a position. -/
def riskAt (g : Graph) (s : ImpactSettings) (i : Nat) : RiskAssessment :=
  let up := g.reachable .upstream s.maxDepth i
  let down := g.reachable .downstream s.maxDepth i
  s.assess up.length down.length (up.any fun a => s.entryPoint.accepts (g.node a))

/-- The risk of changing an entity. -/
def risk (g : Graph) (s : ImpactSettings) (id : String) : Except GraphFailure RiskAssessment :=
  (g.locate id).map (g.riskAt s)

/-- The complexity of an entity. -/
def complexity (g : Graph) (id : String) : Except GraphFailure Complexity :=
  (g.get id).map fun e => .ofOutDegree e.outDegree

/-- The complexities of all entities. -/
def complexitySummary (g : Graph) : ComplexityHistogram :=
  .ofOutDegrees (g.entities.toList.map (·.outDegree))

/-- All that is known about changing an entity. -/
def impact (g : Graph) (s : ImpactSettings) (id : String) : Except GraphFailure ImpactReport := do
  let i ← g.locate id
  let callers ← g.callers id
  let callees ← g.callees id
  let ancestors := g.transitiveAt s .upstream i
  let descendants := g.transitiveAt s .downstream i
  let ids (es : List Entity) : List String := es.map (·.id)
  return {
    entityId := (g.node i).id
    directCallers := ids callers
    directCallees := ids callees
    ancestors := ids ancestors
    descendants := ids descendants
    entryPointAncestors := ids (ancestors.filter s.entryPoint.accepts)
    risk := g.riskAt s i
    complexity := .ofOutDegree (g.node i).outDegree }

end Graph

end CallAtlas
