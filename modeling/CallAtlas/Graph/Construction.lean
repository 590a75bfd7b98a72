import CallAtlas.Graph.Basic
import CallAtlas.Graph.Resolution
import CallAtlas.Script.ParsedFile

/-!
# Building the graph of some files

Two passes. The first collects the entities of every file into a catalog. The
second resolves every call site against the finished catalog and links the
entities in file order, so the result does not depend on how the work is
scheduled.
-/

namespace CallAtlas

open Script (ParsedFile CallSite)

/-- A resolved call that has not been linked yet. -/
structure PendingCall where
  caller : Nat
  targets : List Nat
  line : Nat
deriving DecidableEq, Repr, Inhabited

/-- The catalog of the entities of some files. -/
def Catalog.ofFiles (files : List ParsedFile) : Catalog :=
  .ofList (files.flatMap (·.entities))

/-- Resolves one call site of a file, adding to what has been found so far. -/
def Catalog.resolveSite (c : Catalog) (policy : ResolutionPolicy) (file : ParsedFile)
    (acc : List PendingCall × Diagnostics) (site : CallSite) : List PendingCall × Diagnostics :=
  match site.caller.bind c.indexOf? with
  | none => (acc.1, acc.2.recordUncontained)
  | some caller =>
      let resolution := c.resolve policy site.callee file.path
      let diagnostics := acc.2.record resolution
      match resolution.targets with
      | [] => (acc.1, diagnostics)
      | targets => (acc.1 ++ [{ caller, targets, line := site.line }], diagnostics)

/-- Resolves the call sites of a file. -/
def Catalog.resolveFile (c : Catalog) (policy : ResolutionPolicy) (file : ParsedFile) :
    List PendingCall × Diagnostics :=
  file.callSites.foldl (c.resolveSite policy file) ([], { dynamic := file.dynamicCalls })

namespace Graph

/-- Links a caller to one target and counts whether that was new. -/
def linkTarget (caller line : Nat) (acc : Graph × Diagnostics) (target : Nat) :
    Graph × Diagnostics :=
  let (g, d) := acc
  if g.linked caller target then (g, { d with duplicateEdges := d.duplicateEdges + 1 })
  else (g.link caller target line, { d with edgesInserted := d.edgesInserted + 1 })

/-- Links a resolved call. -/
def linkCall (acc : Graph × Diagnostics) (call : PendingCall) : Graph × Diagnostics :=
  call.targets.foldl (linkTarget call.caller call.line) acc

/-- Adds what was found in one file. -/
def linkFile (acc : Graph × Diagnostics) (found : List PendingCall × Diagnostics) :
    Graph × Diagnostics :=
  found.1.foldl linkCall (acc.1, acc.2.merge found.2)

/-- The graph of a catalog, with the calls that some files make. -/
def build (c : Catalog) (policy : ResolutionPolicy) (files : List ParsedFile) :
    Graph × Diagnostics :=
  (files.map (c.resolveFile policy)).foldl linkFile (ofCatalog c, {})

/-- The graph of some files. -/
def buildFromFiles (policy : ResolutionPolicy) (files : List ParsedFile) : Graph × Diagnostics :=
  build (.ofFiles files) policy files

end Graph

end CallAtlas
