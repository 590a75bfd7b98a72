import CallAtlas.Proofs.Graph.Containment

/-!
# The counts of a build balance

A call is counted in several places: while a file is read, where its callee is resolved,
when the counts of the files are added, and when its links are put into the graph. **None is
counted twice and none is passed over.**

The nodes of a tree are counted here without any walk (`Node.callCount`). Every one of them
is either a call site or a call without a static name (`callSites_add_dynamicCalls`), and every
call site counts for exactly one thing (`Diagnostics.Accounts.countsOf`). What the counts of
two parts account for they account for together when they are added, so a file and a build
follow (`Diagnostics.Accounts.sum`).
-/

namespace CallAtlas

open Script (ParsedFile CallSite Visit Node)

/-! ### Counting the calls of a tree -/

namespace Script

mutual

/-- How many calls there are at and below a node. -/
def Node.callCount : Node → Nat
  | .mk kind _ _ _ _ children =>
      (if kind = .callExpression then 1 else 0) + Node.callCountOfParts children

/-- How many calls there are at and below some nodes. -/
def Node.callCountOfParts : List Node → Nat
  | [] => 0
  | n :: parts => n.callCount + Node.callCountOfParts parts

end

/-- Is the visited node a call? -/
def isCall (v : Visit) : Bool := v.node.kind = .callExpression

theorem Node.callCountOfParts_eq (parts : List Node) :
    callCountOfParts parts = (parts.map callCount).sum := by
  induction parts with
  | nil => rfl
  | cons n parts ih => rw [callCountOfParts, ih, List.map_cons, List.sum_cons]

theorem Node.callCount_eq (n : Node) :
    n.callCount = (if n.kind = .callExpression then 1 else 0) + (n.children.map callCount).sum := by
  cases n with
  | mk kind role text startLine endLine children =>
      rw [callCount, callCountOfParts_eq]
      rfl

/-- A walk meets every call of the tree once, whatever surrounds the tree. -/
theorem countP_isCall_visits (n : Node) (binding : Option String) (enclosing : Option Identity) :
    (visits binding enclosing n).countP isCall = n.callCount := by
  induction n using Node.inductOnParts generalizing binding enclosing with
  | step n ih =>
      have hparts : ∀ x ∈ n.children.zipIdx,
          (visits (n.bindingAt binding x.2) ((n.identity? binding).or enclosing) x.1).countP isCall =
            x.1.callCount :=
        fun x hx => ih x.1 (List.fst_mem_of_mem_zipIdx hx) _ _
      rw [visits_eq, List.countP_cons, List.countP_flatMap, Node.callCount_eq, Nat.add_comm]
      unfold Function.comp
      rw [List.map_congr_left hparts]
      congr 1
      · simp [isCall]
      · have hfst := congrArg (List.map Node.callCount) (List.zipIdx_map_fst 0 n.children)
        rw [List.map_map] at hfst
        exact congrArg List.sum hfst

namespace ParsedFile

theorem isSome_callSiteAt?_eq (file : ParsedFile) (v : Visit) :
    (file.callSiteAt? v).isSome = (isCall v && v.node.callee?.isSome) := by
  unfold callSiteAt? isCall
  by_cases hkind : v.node.kind = .callExpression <;> simp [hkind]

/-- Every call is a call site or has no static name, and none is both. -/
theorem callSites_add_dynamicCalls (file : ParsedFile) :
    file.callSites.length + file.dynamicCalls = file.tree.callCount := by
  rw [file.callSites_eq_filterMap, file.dynamicCalls_eq_countP, walk,
    List.length_filterMap_eq_countP, ← countP_isCall_visits file.tree none none,
    List.countP_eq_countP_filter_add _ isCall fun v => v.node.callee?.isSome, List.countP_filter,
    List.countP_filter]
  congr 1
  · apply List.countP_congr
    intro v _
    rw [isSome_callSiteAt?_eq]
  · apply List.countP_congr
    intro v _
    simp [isDynamicCall, isCall]

end ParsedFile

end Script

/-! ### What counts account for -/

namespace Diagnostics

/-- Some counts account for so many calls, whose call sites have so many targets. -/
structure Accounts (d : Diagnostics) (calls targets : Nat) : Prop where
  /-- Every call site was counted as one of three things. -/
  sites : d.totalCallSites = d.resolved + d.unresolved + d.uncontained
  calls : d.totalCallSites + d.dynamic = calls
  ambiguous_le : d.ambiguous ≤ d.resolved
  /-- A resolved call site has a target, and an ambiguous one has two. -/
  le_targets : d.resolved + d.ambiguous ≤ targets

namespace Accounts

theorem zero : Accounts 0 0 0 := ⟨rfl, rfl, Nat.le_refl 0, Nat.le_refl 0⟩

theorem add {d d' : Diagnostics} {calls calls' targets targets' : Nat}
    (h : d.Accounts calls targets) (h' : d'.Accounts calls' targets') :
    (d + d').Accounts (calls + calls') (targets + targets') := by
  obtain ⟨hsites, hcalls, hambiguous, htargets⟩ := h
  obtain ⟨hsites', hcalls', hambiguous', htargets'⟩ := h'
  have htotal : (d + d').ambiguous = d.ambiguous + d'.ambiguous := rfl
  constructor
  all_goals simp only [add_totalCallSites, add_resolved, add_unresolved, add_uncontained,
    add_dynamic, htotal]
  all_goals omega

/-- The counts of several parts account for what the parts have together. -/
theorem sum {β : Type} {counts : β → Diagnostics} {calls targets : β → Nat} {bs : List β}
    (h : ∀ b ∈ bs, (counts b).Accounts (calls b) (targets b)) :
    (bs.map counts).sum.Accounts (bs.map calls).sum (bs.map targets).sum := by
  induction bs with
  | nil => exact zero
  | cons b bs ih =>
      obtain ⟨hb, hbs⟩ := List.forall_mem_cons.mp h
      exact hb.add (ih hbs)

theorem recordUncontained : (Diagnostics.recordUncontained 0).Accounts 1 0 :=
  ⟨rfl, rfl, Nat.le_refl 0, Nat.le_refl 0⟩

theorem ofTargets (n : Nat) : (Diagnostics.ofTargets n).Accounts 1 n := by
  constructor
  all_goals simp only [Diagnostics.ofTargets]
  all_goals omega

/-- A call site counts for one call. -/
theorem countsOf (c : Catalog) (policy : ResolutionPolicy) (file : ParsedFile) (site : CallSite) :
    (c.countsOf policy file site).Accounts 1 ((c.targetCount? policy file site).getD 0) := by
  rw [c.countsOf_eq]
  cases c.targetCount? policy file site with
  | none => exact recordUncontained
  | some n => exact ofTargets n

/-- A file counts for the calls in its tree. -/
theorem fileCounts (c : Catalog) (policy : ResolutionPolicy) (file : ParsedFile) :
    (c.fileCounts policy file).Accounts file.tree.callCount
      (file.callSites.map fun site => (c.targetCount? policy file site).getD 0).sum := by
  have hdynamic : Accounts { dynamic := file.dynamicCalls } file.dynamicCalls 0 :=
    ⟨rfl, Nat.zero_add _, Nat.le_refl 0, Nat.le_refl 0⟩
  have hsites := sum fun site (_ : site ∈ file.callSites) => countsOf c policy file site
  have hcalls := hdynamic.add hsites
  rw [List.map_const', List.sum_replicate, smul_eq_mul, mul_one, Nat.add_comm,
    file.callSites_add_dynamicCalls, Nat.zero_add] at hcalls
  exact hcalls

end Accounts

end Diagnostics

/-! ### The targets of contained calls -/

namespace Catalog

/-- To how many entities the contained call sites of a file resolve, all taken together. -/
def containedTargets (c : Catalog) (policy : ResolutionPolicy) (file : ParsedFile) : Nat :=
  ((file.callSites.filter (·.caller.isSome)).map fun site =>
    (c.resolve policy site.callee file.path).targets.length).sum

/-- In the catalog of the files, a site offers a link to each of its targets if it names a
caller, and no link otherwise. -/
theorem targetCount?_getD {files : List ParsedFile} {file : ParsedFile} (hfile : file ∈ files)
    {site : CallSite} (hsite : site ∈ file.callSites) (policy : ResolutionPolicy) :
    ((ofFiles files).targetCount? policy file site).getD 0 =
      if site.caller.isSome then
        ((ofFiles files).resolve policy site.callee file.path).targets.length
      else 0 := by
  have hcaller := isUncontained_ofFiles hfile hsite
  unfold isUncontained at hcaller
  unfold targetCount?
  cases hname : site.caller with
  | none => rfl
  | some id =>
      rw [hname] at hcaller
      obtain ⟨i, hi⟩ := Option.isSome_iff_exists.mp (Option.isNone_eq_false_iff.mp hcaller)
      rw [hi, resolve, Resolution.targets_ofCandidates]
      rfl

theorem sum_targetCount? {files : List ParsedFile} {file : ParsedFile} (hfile : file ∈ files)
    (policy : ResolutionPolicy) :
    (file.callSites.map fun site =>
        ((ofFiles files).targetCount? policy file site).getD 0).sum =
      (ofFiles files).containedTargets policy file := by
  unfold containedTargets
  rw [List.map_congr_left fun site hsite => targetCount?_getD hfile hsite policy]
  induction file.callSites with
  | nil => rfl
  | cons site sites ih =>
      rw [List.map_cons, List.sum_cons, ih, List.filter_cons]
      split
      · rfl
      · exact Nat.zero_add _

end Catalog

namespace Graph

/-- The counts of a build balance: with each other, with the trees of the files, with the
graph, and with what the call sites resolve to. -/
structure Balanced (policy : ResolutionPolicy) (files : List ParsedFile)
    (built : Graph × Diagnostics) : Prop where
  sites : built.2.totalCallSites =
    built.2.resolved + built.2.unresolved + built.2.uncontained
  calls : built.2.totalCallSites + built.2.dynamic = (files.map (·.tree.callCount)).sum
  ambiguous_le : built.2.ambiguous ≤ built.2.resolved
  edges : built.2.edgesInserted = built.1.edgeCount
  /-- Every target of a contained call site was offered as an edge, once. -/
  targets : built.2.edgesInserted + built.2.duplicateEdges =
    (files.map ((Catalog.ofFiles files).containedTargets policy)).sum
  le_targets : built.2.resolved + built.2.ambiguous ≤
    (files.map ((Catalog.ofFiles files).containedTargets policy)).sum

/-- **The counts of a build balance**, for all files and every policy. -/
theorem balanced_buildFromFiles (policy : ResolutionPolicy) (files : List ParsedFile) :
    Balanced policy files (buildFromFiles policy files) := by
  have htargets := List.map_congr_left fun file (hfile : file ∈ files) =>
    Catalog.sum_targetCount? hfile policy
  have hcounts := Diagnostics.Accounts.sum fun file (_ : file ∈ files) =>
    Diagnostics.Accounts.fileCounts (.ofFiles files) policy file
  rw [htargets, ← calls_build] at hcounts
  have hoffered := offered_build (.ofFiles files) policy files
  rw [htargets] at hoffered
  exact {
    sites := hcounts.sites
    calls := hcounts.calls
    ambiguous_le := hcounts.ambiguous_le
    edges := edgesInserted_build (.ofFiles files) policy files
    targets := hoffered
    le_targets := hcounts.le_targets }

end Graph

end CallAtlas
