import CallAtlas.Graph.EntryPoint

/-!
# Risk

How risky it is to change an entity, by how many entities could notice, with one
level more when an entry point is among them.
-/

namespace CallAtlas

/-- How much could break. -/
inductive RiskLevel where
  | low
  | medium
  | high
deriving DecidableEq, Repr, Inhabited

namespace RiskLevel

/-- The level's name in reports. -/
def name : RiskLevel → String
  | low => "low"
  | medium => "medium"
  | high => "high"

/-- One level up; nothing is above `high`. -/
def escalate : RiskLevel → RiskLevel
  | low => medium
  | medium => high
  | high => high

end RiskLevel

/-- Sizes above which a level starts. -/
structure RiskThresholds where
  highAbove : Nat := 10
  mediumAbove : Nat := 5
deriving DecidableEq, Repr, Inhabited

/-- The level of a size. -/
def RiskThresholds.classify (t : RiskThresholds) (size : Nat) : RiskLevel :=
  if t.highAbove < size then .high
  else if t.mediumAbove < size then .medium
  else .low

/-- Which entities make up the size. -/
inductive RiskBasis where
  /-- Those that depend on the entity. -/
  | upstream
  /-- Those, and those it depends on. -/
  | combined
deriving DecidableEq, Repr, Inhabited

namespace RiskBasis

/-- The basis' name in settings. -/
def name : RiskBasis → String
  | upstream => "upstream"
  | combined => "combined"

/-- Reads a basis back from its name. -/
def ofName? : String → Option RiskBasis
  | "upstream" => some upstream
  | "combined" => some combined
  | _ => none

end RiskBasis

/-- Settings of the impact analysis. -/
structure ImpactSettings where
  thresholds : RiskThresholds := {}
  basis : RiskBasis := .upstream
  /-- One level more when an entry point depends on the entity. -/
  escalateOnEntryPoint : Bool := true
  entryPoint : EntryPointRule := .noCallers
  /-- How many links a dependency may be away. -/
  maxDepth : Option Nat := none
  /-- How many dependency sets may be kept for later questions. Answers do not
  depend on it. -/
  cacheCapacity : Nat := 1024
deriving DecidableEq, Repr, Inhabited

/-- A risk level and how it came about. -/
structure RiskAssessment where
  level : RiskLevel
  /-- The level of the size alone. -/
  baseLevel : RiskLevel
  size : Nat
  escalated : Bool
deriving DecidableEq, Repr, Inhabited

/-- The risk of an entity with so many ancestors and descendants; `entered` says
that an entry point is among the ancestors. -/
def ImpactSettings.assess (s : ImpactSettings) (ancestors descendants : Nat) (entered : Bool) :
    RiskAssessment :=
  let size := match s.basis with
    | .upstream => ancestors
    | .combined => ancestors + descendants
  let baseLevel := s.thresholds.classify size
  let escalated := s.escalateOnEntryPoint && entered && baseLevel != .high
  { level := if escalated then baseLevel.escalate else baseLevel, baseLevel, size, escalated }

end CallAtlas
