import Mathlib.Algebra.BigOperators.Group.List.Basic
import CallAtlas.Proofs.Graph.Construction

/-!
# What is counted while a graph is built

The counts of two parts of an analysis are added, so counts form a commutative monoid and
what a build counts is a sum. There are counts of two kinds.

**Calls** are counted where they are resolved, and what a call site adds depends on nothing
that was found before it (`Catalog.countsOf`). Linking leaves these counts alone.

**Edges** are counted while linking, and whether a link is new depends on all links before
it. But every link that is offered is counted once, as an edge or as a duplicate, and the
edges counted are the links that the graph has gained (`Graph.Counted`). So both counts can
be read off the graph and the number of links that are offered.
-/

namespace CallAtlas

open Script (ParsedFile CallSite)

attribute [ext] Diagnostics

/-! ### Adding counts -/

namespace Diagnostics

instance : Add Diagnostics := ⟨merge⟩

instance : Zero Diagnostics := ⟨{}⟩

instance : AddCommMonoid Diagnostics where
  add_assoc _ _ _ := by ext <;> exact Nat.add_assoc _ _ _
  zero_add _ := by ext <;> exact Nat.zero_add _
  add_zero _ := rfl
  add_comm _ _ := by ext <;> exact Nat.add_comm _ _
  nsmul := nsmulRec

theorem zero_def : (0 : Diagnostics) = {} := rfl

@[simp] theorem add_totalCallSites (d e : Diagnostics) :
    (d + e).totalCallSites = d.totalCallSites + e.totalCallSites := rfl

@[simp] theorem add_resolved (d e : Diagnostics) :
    (d + e).resolved = d.resolved + e.resolved := rfl

@[simp] theorem add_unresolved (d e : Diagnostics) :
    (d + e).unresolved = d.unresolved + e.unresolved := rfl

@[simp] theorem add_uncontained (d e : Diagnostics) :
    (d + e).uncontained = d.uncontained + e.uncontained := rfl

@[simp] theorem add_dynamic (d e : Diagnostics) : (d + e).dynamic = d.dynamic + e.dynamic := rfl

theorem record_eq_add (d : Diagnostics) (r : Resolution) : d.record r = d + record 0 r := by
  cases r <;> rfl

/-- The counts of a call site within an entity that has so many targets. -/
def ofTargets (n : Nat) : Diagnostics where
  totalCallSites := 1
  resolved := min 1 n
  unresolved := 1 - n
  ambiguous := min 1 (n - 1)

theorem record_ofCandidates (is : List Nat) : record 0 (.ofCandidates is) = ofTargets is.length := by
  match is with
  | [] => rfl
  | [_] => rfl
  | _ :: _ :: _ => simp [Resolution.ofCandidates, record, ofTargets, zero_def]

theorem recordUncontained_eq_add (d : Diagnostics) :
    d.recordUncontained = d + recordUncontained 0 := rfl

/-- The counts of calls, without those of edges. -/
def calls : Diagnostics →+ Diagnostics where
  toFun d := { d with edgesInserted := 0, duplicateEdges := 0 }
  map_zero' := rfl
  map_add' _ _ := rfl

/-- How many links were offered. -/
def offered (d : Diagnostics) : Nat := d.edgesInserted + d.duplicateEdges

theorem ext_calls {d e : Diagnostics} (hcalls : d.calls = e.calls)
    (hinserted : d.edgesInserted = e.edgesInserted) (hoffered : d.offered = e.offered) : d = e := by
  unfold offered at hoffered
  have hcounts := Diagnostics.ext_iff.mp hcalls
  obtain ⟨htotal, hresolved, hunresolved, hambiguous, huncontained, hdynamic, _⟩ := hcounts
  exact Diagnostics.ext htotal hresolved hunresolved hambiguous huncontained hdynamic hinserted
    (by omega)

end Diagnostics

/-! ### Calls -/

namespace Catalog

/-- What a call site of a file adds to the counts. -/
def countsOf (c : Catalog) (policy : ResolutionPolicy) (file : ParsedFile) (site : CallSite) :
    Diagnostics :=
  match site.caller.bind c.indexOf? with
  | none => .recordUncontained 0
  | some _ => .record 0 (c.resolve policy site.callee file.path)

/-- What a file adds to the counts. -/
def fileCounts (c : Catalog) (policy : ResolutionPolicy) (file : ParsedFile) : Diagnostics :=
  { dynamic := file.dynamicCalls } + (file.callSites.map (c.countsOf policy file)).sum

/-- How many targets a call site has, if an entity contains it. -/
def targetCount? (c : Catalog) (policy : ResolutionPolicy) (file : ParsedFile) (site : CallSite) :
    Option Nat :=
  (site.caller.bind c.indexOf?).map fun _ => (c.candidates policy site.callee file.path).length

/-- What is counted at a call site depends on the number of its targets. -/
theorem countsOf_eq (c : Catalog) (policy : ResolutionPolicy) (file : ParsedFile)
    (site : CallSite) :
    c.countsOf policy file site =
      (c.targetCount? policy file site).elim (.recordUncontained 0) .ofTargets := by
  unfold countsOf targetCount?
  cases site.caller.bind c.indexOf? with
  | none => rfl
  | some caller => exact Diagnostics.record_ofCandidates _

/-- A call site asks for one link to every target. -/
theorem length_linksOf (c : Catalog) (policy : ResolutionPolicy) (file : ParsedFile)
    (site : CallSite) :
    (c.linksOf policy file site).length = (c.targetCount? policy file site).getD 0 := by
  unfold linksOf targetCount?
  cases site.caller.bind c.indexOf? with
  | none => rfl
  | some caller => simp

theorem resolveSite_snd (c : Catalog) (policy : ResolutionPolicy) (file : ParsedFile)
    (acc : List PendingCall × Diagnostics) (site : CallSite) :
    (c.resolveSite policy file acc site).2 = acc.2 + c.countsOf policy file site := by
  unfold resolveSite countsOf
  cases site.caller.bind c.indexOf? with
  | none => exact Diagnostics.recordUncontained_eq_add acc.2
  | some caller =>
      dsimp only
      split <;> exact Diagnostics.record_eq_add acc.2 _

theorem foldl_resolveSite_snd (c : Catalog) (policy : ResolutionPolicy) (file : ParsedFile)
    (sites : List CallSite) (acc : List PendingCall × Diagnostics) :
    (sites.foldl (c.resolveSite policy file) acc).2 =
      acc.2 + (sites.map (c.countsOf policy file)).sum := by
  induction sites generalizing acc with
  | nil => simp
  | cons site sites ih =>
      rw [List.foldl_cons, ih, resolveSite_snd, List.map_cons, List.sum_cons, add_assoc]

theorem resolveFile_snd (c : Catalog) (policy : ResolutionPolicy) (file : ParsedFile) :
    (c.resolveFile policy file).2 = c.fileCounts policy file :=
  c.foldl_resolveSite_snd policy file file.callSites ([], { dynamic := file.dynamicCalls })

/-- Resolving counts no edges. -/
theorem calls_countsOf (c : Catalog) (policy : ResolutionPolicy) (file : ParsedFile)
    (site : CallSite) : (c.countsOf policy file site).calls = c.countsOf policy file site := by
  unfold countsOf
  split
  · rfl
  · cases c.resolve policy site.callee file.path <;> rfl

theorem calls_fileCounts (c : Catalog) (policy : ResolutionPolicy) (file : ParsedFile) :
    (c.fileCounts policy file).calls = c.fileCounts policy file := by
  unfold fileCounts
  rw [map_add, map_list_sum, List.map_map]
  congr 2
  exact List.map_congr_left fun site _ => c.calls_countsOf policy file site

end Catalog

/-! ### Edges -/

namespace Graph

/-- A stretch of linking offers some links and adds some counts of calls: every link is
counted once, and those that are new are counted as edges. -/
structure Counted (acc acc' : Graph × Diagnostics) (links : List Link) (counts : Diagnostics) :
    Prop where
  calls : acc'.2.calls = acc.2.calls + counts
  inserted : acc'.2.edgesInserted + acc.1.edgeCount = acc.2.edgesInserted + acc'.1.edgeCount
  offered : acc'.2.offered = acc.2.offered + links.length

namespace Counted

variable {acc acc' acc'' : Graph × Diagnostics} {links links' : List Link}
  {counts counts' : Diagnostics}

theorem refl (acc : Graph × Diagnostics) : Counted acc acc [] 0 :=
  ⟨(add_zero _).symm, rfl, rfl⟩

theorem trans (h : Counted acc acc' links counts) (h' : Counted acc' acc'' links' counts') :
    Counted acc acc'' (links ++ links') (counts + counts') := by
  have hinserted := h.inserted
  have hinserted' := h'.inserted
  refine ⟨?_, by omega, ?_⟩
  · rw [h'.calls, h.calls, add_assoc]
  · rw [h'.offered, h.offered, List.length_append, Nat.add_assoc]

/-- A loop adds up what its rounds count. -/
theorem foldl {β : Type} {step : Graph × Diagnostics → β → Graph × Diagnostics}
    {links : β → List Link} {counts : β → Diagnostics}
    (h : ∀ b acc, Counted acc (step acc b) (links b) (counts b)) (bs : List β)
    (acc : Graph × Diagnostics) :
    Counted acc (bs.foldl step acc) (bs.flatMap links) (bs.map counts).sum := by
  induction bs generalizing acc with
  | nil => exact refl acc
  | cons b bs ih =>
      rw [List.foldl_cons, List.flatMap_cons, List.map_cons, List.sum_cons]
      exact (h b acc).trans (ih (step acc b))

end Counted

theorem edgeCount_link_of_not_linked {g : Graph} {source target : Nat}
    (h : ¬ g.linked source target) (line : Nat) :
    (g.link source target line).edgeCount = g.edgeCount + 1 := by
  unfold link edgeCount
  rw [if_neg h]
  exact Array.size_push _

theorem counted_linkTarget (caller line : Nat) (acc : Graph × Diagnostics) (target : Nat) :
    Counted acc (linkTarget caller line acc target) [⟨caller, target, line⟩] 0 := by
  unfold linkTarget
  dsimp only
  split
  · exact ⟨rfl, rfl, rfl⟩
  · rename_i hnew
    refine ⟨rfl, ?_, ?_⟩
    · rw [edgeCount_link_of_not_linked hnew]
      dsimp only
      omega
    · simp only [Diagnostics.offered, List.length_singleton]
      omega

theorem counted_linkCall (acc : Graph × Diagnostics) (call : PendingCall) :
    Counted acc (linkCall acc call) call.links 0 := by
  have hcall := Counted.foldl
    (fun target acc => counted_linkTarget call.caller call.line acc target) call.targets acc
  rw [List.sum_map_zero, ← List.map_eq_flatMap] at hcall
  exact hcall

/-- What was found in a file brings the counts of its calls, and its links are counted
then. -/
theorem counted_linkFile {found : List PendingCall × Diagnostics} (h : found.2.calls = found.2)
    (acc : Graph × Diagnostics) :
    Counted acc (linkFile acc found) (found.1.flatMap PendingCall.links) found.2 := by
  have hlink := Counted.foldl (fun call acc => counted_linkCall acc call) found.1
    (acc.1, acc.2 + found.2)
  rw [List.sum_map_zero] at hlink
  have hmerge : Counted acc (acc.1, acc.2 + found.2) [] found.2 := by
    refine ⟨?_, ?_, ?_⟩
    · rw [map_add, h]
    · rw [← h]
      rfl
    · rw [← h]
      rfl
  have htrans := hmerge.trans hlink
  rw [add_zero] at htrans
  exact htrans

/-- Building counts the calls of every file, and every link that a call site asks for. -/
theorem counted_build (c : Catalog) (policy : ResolutionPolicy) (files : List ParsedFile) :
    Counted (ofCatalog c, 0) (build c policy files)
      (files.flatMap fun f => f.callSites.flatMap (c.linksOf policy f))
      (files.map (c.fileCounts policy)).sum := by
  unfold build
  rw [List.foldl_map]
  refine Counted.foldl (fun file acc => ?_) files _
  rw [← c.links_resolveFile, ← c.resolveFile_snd]
  refine counted_linkFile ?_ acc
  rw [c.resolveFile_snd, c.calls_fileCounts]

/-- The calls counted are those of the call sites. -/
theorem calls_build (c : Catalog) (policy : ResolutionPolicy) (files : List ParsedFile) :
    (build c policy files).2.calls = (files.map (c.fileCounts policy)).sum := by
  rw [(counted_build c policy files).calls, map_zero, zero_add]

/-- The edges counted are those of the graph. -/
theorem edgesInserted_build (c : Catalog) (policy : ResolutionPolicy) (files : List ParsedFile) :
    (build c policy files).2.edgesInserted = (build c policy files).1.edgeCount := by
  have hinserted := (counted_build c policy files).inserted
  have hnone : (ofCatalog c).edgeCount = 0 := by simp [edgeCount]
  have hzero : (0 : Diagnostics).edgesInserted = 0 := rfl
  rw [hnone, hzero, Nat.add_zero, Nat.zero_add] at hinserted
  exact hinserted

theorem edgesInserted_buildFromFiles (policy : ResolutionPolicy) (files : List ParsedFile) :
    (buildFromFiles policy files).2.edgesInserted =
      (buildFromFiles policy files).1.edges.length := by
  rw [(wellFormed_buildFromFiles policy files).coherent.length_edges]
  exact edgesInserted_build (.ofFiles files) policy files

/-- Every link that a call site asks for is counted. -/
theorem offered_build (c : Catalog) (policy : ResolutionPolicy) (files : List ParsedFile) :
    (build c policy files).2.offered = (files.map fun f =>
      (f.callSites.map fun site => (c.targetCount? policy f site).getD 0).sum).sum := by
  have hzero : (0 : Diagnostics).offered = 0 := rfl
  rw [(counted_build c policy files).offered, hzero, Nat.zero_add]
  simp only [List.length_flatMap, Catalog.length_linksOf]

end Graph

end CallAtlas
