import CallAtlas.Graph.Catalog

/-!
# Resolving calls by name

A callee's name stands for every entity that has it, wherever that is declared;
receivers and imports are not looked at. A **policy** only narrows which of these
candidates are linked.
-/

namespace CallAtlas

/-- Which of the entities with the callee's name are linked. -/
inductive ResolutionPolicy where
  /-- All of them. -/
  | allMatches
  /-- Those in the caller's file, or all of them if there are none. -/
  | preferSameFile
  /-- Those in the caller's file. -/
  | sameFileOnly
deriving DecidableEq, Repr, Inhabited

namespace ResolutionPolicy

/-- The policy's name in settings and reports. -/
def name : ResolutionPolicy → String
  | allMatches => "all_matches"
  | preferSameFile => "prefer_same_file"
  | sameFileOnly => "same_file_only"

/-- Reads a policy back from its name. -/
def ofName? : String → Option ResolutionPolicy
  | "all_matches" => some allMatches
  | "prefer_same_file" => some preferSameFile
  | "same_file_only" => some sameFileOnly
  | _ => none

end ResolutionPolicy

/-- What a callee's name turned out to stand for. -/
inductive Resolution where
  | unresolved
  | unique (target : Nat)
  /-- More than one candidate, all of which are linked. -/
  | ambiguous (targets : List Nat)
deriving DecidableEq, Repr, Inhabited

namespace Resolution

/-- The positions of the entities that are linked. -/
def targets : Resolution → List Nat
  | unresolved => []
  | unique target => [target]
  | ambiguous targets => targets

/-- The outcome's name in reports. -/
def name : Resolution → String
  | unresolved => "unresolved"
  | unique _ => "unique"
  | ambiguous _ => "ambiguous"

/-- The outcome for some candidates. -/
def ofCandidates : List Nat → Resolution
  | [] => unresolved
  | [target] => unique target
  | targets => ambiguous targets

@[simp] theorem targets_ofCandidates (candidates : List Nat) :
    (ofCandidates candidates).targets = candidates := by
  match candidates with
  | [] => rfl
  | [_] => rfl
  | _ :: _ :: _ => rfl

end Resolution

/-- The positions of the entities with a name that a policy links for a call made
in a given file. -/
def Catalog.candidates (c : Catalog) (policy : ResolutionPolicy) (callee file : String) :
    List Nat :=
  let all := c.named callee
  let local' := all.filter fun i => (c.get? i).any (·.filePath == file)
  match policy with
  | .allMatches => all
  | .sameFileOnly => local'
  | .preferSameFile => if local'.isEmpty then all else local'

/-- Resolves a callee's name for a call made in a given file. -/
def Catalog.resolve (c : Catalog) (policy : ResolutionPolicy) (callee file : String) :
    Resolution :=
  .ofCandidates (c.candidates policy callee file)

/-- What became of the calls of an analysis. -/
structure Diagnostics where
  totalCallSites : Nat := 0
  resolved : Nat := 0
  unresolved : Nat := 0
  /-- Resolved call sites with more than one target. -/
  ambiguous : Nat := 0
  /-- Call sites outside any entity. -/
  uncontained : Nat := 0
  /-- Calls whose callee has no static name. -/
  dynamic : Nat := 0
  edgesInserted : Nat := 0
  /-- Resolved targets that the caller was linked to already. -/
  duplicateEdges : Nat := 0
deriving DecidableEq, Repr, Inhabited

namespace Diagnostics

/-- Counts the resolution of one call site. -/
def record (d : Diagnostics) : Resolution → Diagnostics
  | .unresolved =>
      { d with totalCallSites := d.totalCallSites + 1, unresolved := d.unresolved + 1 }
  | .unique _ => { d with totalCallSites := d.totalCallSites + 1, resolved := d.resolved + 1 }
  | .ambiguous _ =>
      { d with
        totalCallSites := d.totalCallSites + 1, resolved := d.resolved + 1,
        ambiguous := d.ambiguous + 1 }

/-- Counts a call site outside any entity. -/
def recordUncontained (d : Diagnostics) : Diagnostics :=
  { d with totalCallSites := d.totalCallSites + 1, uncontained := d.uncontained + 1 }

/-- Adds the counts of two parts of an analysis. -/
def merge (d e : Diagnostics) : Diagnostics where
  totalCallSites := d.totalCallSites + e.totalCallSites
  resolved := d.resolved + e.resolved
  unresolved := d.unresolved + e.unresolved
  ambiguous := d.ambiguous + e.ambiguous
  uncontained := d.uncontained + e.uncontained
  dynamic := d.dynamic + e.dynamic
  edgesInserted := d.edgesInserted + e.edgesInserted
  duplicateEdges := d.duplicateEdges + e.duplicateEdges

/-- The share of contained call sites that resolved to an entity. -/
def resolutionRate (d : Diagnostics) : Float :=
  let contained := d.resolved + d.unresolved
  if contained == 0 then 0.0 else Float.ofNat d.resolved / Float.ofNat contained

end Diagnostics

end CallAtlas
