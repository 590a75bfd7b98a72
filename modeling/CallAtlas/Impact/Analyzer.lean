import CallAtlas.Impact.Report

/-!
# Asking again and again

An **analyzer** is asked about one graph many times. What takes long is to find what
an entity reaches, so the analyzer keeps what it found, by entity and direction, for
later questions. Where it keeps it is left open: a `Cache` may drop what it holds
whenever it likes.
-/

namespace CallAtlas

/-! ### Caches -/

/-- A place to keep computed values. -/
structure Cache (κ ν : Type) where
  State : Type
  /-- An empty cache with room for so many values. -/
  new : Nat → State
  /-- The value of a key, computed if it is not there. -/
  getWith : State → κ → (Unit → ν) → ν × State

/-- What a cache of recent values holds. -/
structure Recent (κ ν : Type) where
  capacity : Nat
  /-- How often it was asked. -/
  uses : Nat := 0
  /-- The last one asked for comes first. -/
  entries : List (κ × ν) := []

namespace Recent

variable {κ ν : Type} [DecidableEq κ]

/-- Drops the entries of some keys. -/
def drop (r : Recent κ ν) (dropped : κ → Bool) : Recent κ ν :=
  { r with entries := r.entries.filter fun entry => !dropped entry.1 }

/-- Puts a value first, and drops the last ones where there is no room. -/
def put (r : Recent κ ν) (k : κ) (v : ν) : Recent κ ν :=
  { r with
    uses := r.uses + 1
    entries := ((k, v) :: (r.drop (· = k)).entries).take r.capacity }

end Recent

/-- The cache that keeps the values asked for last. Before each use it also drops the
keys that `drops` tells it to, by the number of uses so far. -/
def Cache.recent (κ ν : Type) [DecidableEq κ] (drops : Nat → κ → Bool) : Cache κ ν where
  State := Recent κ ν
  new capacity := { capacity }
  getWith r k compute :=
    let r := r.drop (drops r.uses)
    let v := (r.entries.lookup k).getD (compute ())
    (v, r.put k v)

/-! ### Questions -/

/-- What an analyzer is asked. -/
inductive ImpactQuestion where
  | ancestors (id : String)
  | descendants (id : String)
  | risk (id : String)
  | complexity (id : String)
  | impact (id : String)
  | complexitySummary
deriving DecidableEq, Repr, Inhabited

/-- What an analyzer answers. -/
inductive ImpactAnswer where
  | entities (es : List Entity)
  | risk (assessment : RiskAssessment)
  | complexity (bucket : Complexity)
  | report (report : ImpactReport)
  | histogram (counts : ComplexityHistogram)
deriving DecidableEq, Repr, Inhabited

/-- The answer to a question, found without a cache. -/
def Graph.answer (g : Graph) (s : ImpactSettings) :
    ImpactQuestion → Except GraphFailure ImpactAnswer
  | .ancestors id => (g.ancestors s id).map .entities
  | .descendants id => (g.descendants s id).map .entities
  | .risk id => (g.risk s id).map .risk
  | .complexity id => (g.complexity id).map .complexity
  | .impact id => (g.impact s id).map .report
  | .complexitySummary => .ok (.histogram g.complexitySummary)

/-! ### Analyzers -/

/-- The caches an analyzer can work with: they keep the positions that are reached from
a position in a direction. -/
abbrev ReachCache := Cache (Nat × Direction) (List Nat)

/-- Work that may use a cache, and may fail. -/
abbrev Cached (C : ReachCache) := ExceptT GraphFailure (StateM C.State)

/-- A graph, the settings to analyse it with, and what is known of it. -/
structure Analyzer (C : ReachCache) where
  graph : Graph
  settings : ImpactSettings
  cache : C.State

namespace Analyzer

/-- An analyzer that has not been asked yet. It has room for one value at least. -/
def new (C : ReachCache) (graph : Graph) (settings : ImpactSettings) : Analyzer C where
  graph
  settings
  cache := C.new (max settings.cacheCapacity 1)

section Answers

variable (C : ReachCache) (g : Graph) (s : ImpactSettings)

/-- What is reached from a position, looked up or found. -/
def reached (d : Direction) (i : Nat) : Cached C (List Nat) :=
  ExceptT.lift fun cache => C.getWith cache (i, d) fun _ => g.reachable d s.maxDepth i

/-- The entities reached from an entity, by id. -/
def transitive (d : Direction) (id : String) : Cached C (List Entity) := do
  let i ← MonadExcept.ofExcept (g.locate id)
  let nodes ← reached C g s d i
  return (g.sortedById nodes).map g.node

/-- The risk of changing the entity at a position. -/
def assess (i : Nat) : Cached C RiskAssessment := do
  let up ← reached C g s .upstream i
  let down ← reached C g s .downstream i
  return s.assess up.length down.length (up.any fun a => s.entryPoint.accepts (g.node a))

/-- The risk of changing an entity. -/
def risk (id : String) : Cached C RiskAssessment := do
  let i ← MonadExcept.ofExcept (g.locate id)
  assess C g s i

/-- All that is known about changing an entity. -/
def impact (id : String) : Cached C ImpactReport := do
  let i ← MonadExcept.ofExcept (g.locate id)
  let ids (es : List Entity) : List String := es.map (·.id)
  let ancestors := (g.sortedById (← reached C g s .upstream i)).map g.node
  let callers ← MonadExcept.ofExcept (g.callers id)
  let callees ← MonadExcept.ofExcept (g.callees id)
  let descendants := (g.sortedById (← reached C g s .downstream i)).map g.node
  let risk ← assess C g s i
  return {
    entityId := (g.node i).id
    directCallers := ids callers
    directCallees := ids callees
    ancestors := ids ancestors
    descendants := ids descendants
    entryPointAncestors := ids (ancestors.filter s.entryPoint.accepts)
    risk
    complexity := .ofOutDegree (g.node i).outDegree }

/-- The answer to a question. -/
def answer : ImpactQuestion → Cached C ImpactAnswer
  | .ancestors id => .entities <$> transitive C g s .upstream id
  | .descendants id => .entities <$> transitive C g s .downstream id
  | .risk id => .risk <$> risk C g s id
  | .complexity id => .complexity <$> MonadExcept.ofExcept (g.complexity id)
  | .impact id => .report <$> impact C g s id
  | .complexitySummary => return .histogram g.complexitySummary

end Answers

variable {C : ReachCache}

/-- The answer to a question, and the analyzer for the next one. -/
def ask (a : Analyzer C) (q : ImpactQuestion) : Except GraphFailure ImpactAnswer × Analyzer C :=
  let (result, cache) := (answer C a.graph a.settings q).run.run a.cache
  (result, { a with cache })

/-- The answers to questions that are asked one after the other. -/
def askAll : Analyzer C → List ImpactQuestion → List (Except GraphFailure ImpactAnswer)
  | _, [] => []
  | a, q :: qs =>
      let (result, a) := a.ask q
      result :: a.askAll qs

end Analyzer

end CallAtlas
