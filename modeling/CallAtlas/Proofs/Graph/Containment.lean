import Mathlib.Data.List.Forall2
import CallAtlas.Proofs.Graph.Diagnostics

/-!
# Who contains a call

Entities are found on the way down: at every function that has an identity. A call
names its caller on the way up: the first function above it that has one, where
functions without an identity are passed over. **Both read the same identity at the
same place**, so the caller that a call names is the entity that was found there
(`siteAt_of_callSiteAt?`), under the same id.

Every such id is in the catalog of the files. So resolving a call site fails to find a
caller only where none is named, and `uncontained` counts exactly these sites.
-/

namespace CallAtlas

open Script (ParsedFile CallSite Place Identity)

/-! ### Reading upwards -/

namespace Script.Place

/-- The places above a place, the innermost first. -/
def above : Place → List Place
  | root _ => []
  | part p _ _ => p :: p.above

/-- Is the node a function with an identity? -/
def isNamed (p : Place) : Bool := p.node.kind.isFunctionLike && p.identity?.isSome

/-- The innermost function above a place that has an identity: the functions between
the two have none. -/
def IsContainer (p q : Place) : Prop :=
  ∃ between outer, p.above = between ++ q :: outer ∧ q.isNamed ∧ ∀ r ∈ between, ¬ r.isNamed

/-- Is the node a call whose callee has a name? -/
def isNamedCall (p : Place) : Bool := p.node.kind = .callExpression && p.node.callee?.isSome

theorem isNamed_iff {p : Place} : p.isNamed ↔ ∃ identity, p.identity? = some identity := by
  rw [isNamed, Bool.and_eq_true, Option.isSome_iff_exists]
  constructor
  · intro h
    exact h.2
  · rintro ⟨identity, h⟩
    exact ⟨Node.isFunctionLike_of_identity? h, identity, h⟩

theorem not_isNamed_iff {p : Place} : ¬ p.isNamed ↔ p.identity? = none := by
  rw [isNamed_iff, Option.eq_none_iff_forall_ne_some, not_exists]

theorem IsContainer.isNamed {p q : Place} (h : p.IsContainer q) : q.isNamed := by
  obtain ⟨_, _, _, hq, _⟩ := h
  exact hq

theorem IsContainer.mem_above {p q : Place} (h : p.IsContainer q) : q ∈ p.above := by
  obtain ⟨_, _, habove, _, _⟩ := h
  simp [habove]

/-- What stands above a place of a tree is a place of the tree. -/
theorem Covers.of_mem_above {p q r : Place} (h : p.Covers q) (hp : p.above = [])
    (hr : r ∈ q.above) : p.Covers r := by
  induction h with
  | refl =>
      rw [hp] at hr
      cases hr
  | part hq _ ih =>
      rcases List.mem_cons.mp hr with rfl | hr
      · exact hq
      · exact ih hr

/-- The enclosing function is the first one with an identity on the way up. -/
theorem enclosing?_eq_findSome? (p : Place) : p.enclosing? = p.above.findSome? identity? := by
  induction p with
  | root tree => rfl
  | part p i n ih =>
      rw [enclosing?_part, above, List.findSome?_cons, ← ih]
      cases p.identity? <;> rfl

theorem enclosing?_eq_none_iff {p : Place} :
    p.enclosing? = none ↔ ∀ q ∈ p.above, ¬ q.isNamed := by
  simp only [enclosing?_eq_findSome?, List.findSome?_eq_none_iff, not_isNamed_iff]

theorem enclosing?_eq_some_iff {p : Place} {identity : Identity} :
    p.enclosing? = some identity ↔ ∃ q, p.IsContainer q ∧ q.identity? = some identity := by
  rw [enclosing?_eq_findSome?, List.findSome?_eq_some_iff]
  simp only [IsContainer, not_isNamed_iff]
  constructor
  · rintro ⟨between, q, outer, habove, hq, hbetween⟩
    exact ⟨q, ⟨between, outer, habove, isNamed_iff.mpr ⟨identity, hq⟩, hbetween⟩, hq⟩
  · rintro ⟨q, ⟨between, outer, habove, _, hbetween⟩, hq⟩
    exact ⟨between, q, outer, habove, hq, hbetween⟩

end Script.Place

/-! ### Call sites and their callers -/

namespace Script.ParsedFile

/-- The call site of a call at some place of a file. -/
structure SiteAt (file : ParsedFile) (site : CallSite) (p : Place) : Prop where
  covers : (Place.root file.tree).Covers p
  isCall : p.node.kind = .callExpression
  callee : p.node.callee? = some (site.callee, site.receiver)
  line : site.line = p.node.startLine
  /-- No caller is named exactly where no function above the call has an identity. -/
  topLevel : site.caller = none ↔ ∀ q ∈ p.above, ¬ q.isNamed
  /-- The caller is the entity found at the innermost function above the call that has
  an identity. -/
  caller : ∀ id, site.caller = some id ↔
    ∃ q e, p.IsContainer q ∧ file.entityAt? q.visit = some e ∧ e ∈ file.entities ∧ e.id = id

/-- At a function with an identity an entity is found, and its id is that of the
identity. -/
theorem exists_entityAt? (file : ParsedFile) {q : Place} {identity : Identity}
    (h : q.identity? = some identity) :
    ∃ e, file.entityAt? q.visit = some e ∧ e.id = file.idOf identity := by
  have hkind : q.visit.node.kind.isFunctionLike = true := Node.isFunctionLike_of_identity? h
  have hvisit : q.visit.identity? = some identity := h
  unfold entityAt?
  rw [if_pos hkind, hvisit]
  exact ⟨_, rfl, rfl⟩

theorem mem_entities_of_entityAt? {file : ParsedFile} {q : Place} {e : Entity}
    (hq : (Place.root file.tree).Covers q) (h : file.entityAt? q.visit = some e) :
    e ∈ file.entities := by
  rw [file.entities_eq_filterMap, walk_eq, List.mem_filterMap]
  exact ⟨q.visit, List.mem_map_of_mem (Place.mem_places.mpr hq), h⟩

theorem siteAt_of_callSiteAt? {file : ParsedFile} {p : Place} {site : CallSite}
    (hp : (Place.root file.tree).Covers p) (h : file.callSiteAt? p.visit = some site) :
    file.SiteAt site p := by
  obtain ⟨hkind, callee, receiver, hcallee, rfl⟩ := callSiteAt?_eq_some.mp h
  refine ⟨hp, hkind, hcallee, rfl, ?_, ?_⟩
  · rw [Option.map_eq_none_iff, Place.enclosing?_eq_none_iff]
  intro id
  rw [Option.map_eq_some_iff]
  constructor
  · rintro ⟨identity, hencl, rfl⟩
    obtain ⟨q, hq, hid⟩ := Place.enclosing?_eq_some_iff.mp hencl
    obtain ⟨e, he, heq⟩ := file.exists_entityAt? hid
    have hcovers := hp.of_mem_above rfl hq.mem_above
    exact ⟨q, e, hq, he, mem_entities_of_entityAt? hcovers he, heq⟩
  · rintro ⟨q, e, hq, he, _, rfl⟩
    obtain ⟨identity, hid⟩ := Place.isNamed_iff.mp hq.isNamed
    obtain ⟨e', he', heq⟩ := file.exists_entityAt? hid
    rw [he] at he'
    cases he'
    exact ⟨identity, Place.enclosing?_eq_some_iff.mpr ⟨q, hq, hid⟩, heq.symm⟩

theorem isSome_callSiteAt? (file : ParsedFile) (p : Place) :
    (file.callSiteAt? p.visit).isSome = p.isNamedCall := by
  by_cases hkind : p.node.kind = .callExpression
  · simp [callSiteAt?, Place.visit, Place.isNamedCall, hkind]
  · simp [callSiteAt?, Place.visit, Place.isNamedCall, hkind]

/-- The call sites of a file, read off the places of its tree. -/
theorem callSites_eq (file : ParsedFile) :
    file.callSites =
      (Place.root file.tree).places.filterMap fun p => file.callSiteAt? p.visit := by
  rw [file.callSites_eq_filterMap, walk_eq, List.filterMap_map]
  rfl

/-- What is found at places is found one after the other at those where something is. -/
theorem forall₂_filterMap {α : Type} {R : α → Place → Prop} {found? : Place → Option α}
    {isFound : Place → Bool} {ps : List Place} (hisSome : ∀ p ∈ ps, (found? p).isSome = isFound p)
    (hfound : ∀ p ∈ ps, ∀ a, found? p = some a → R a p) :
    List.Forall₂ R (ps.filterMap found?) (ps.filter isFound) := by
  induction ps with
  | nil => exact .nil
  | cons p ps ih =>
      obtain ⟨hp, hps⟩ := List.forall_mem_cons.mp hisSome
      obtain ⟨hat, hrest⟩ := List.forall_mem_cons.mp hfound
      rw [List.filterMap_cons, List.filter_cons, ← hp]
      cases ha : found? p with
      | none => exact ih hps hrest
      | some a => exact .cons (hat a ha) (ih hps hrest)

/-- The call sites of a file are those of its calls, one after the other. -/
theorem forall₂_siteAt (file : ParsedFile) :
    List.Forall₂ file.SiteAt file.callSites
      ((Place.root file.tree).places.filter Place.isNamedCall) := by
  rw [callSites_eq]
  refine forall₂_filterMap (fun p _ => file.isSome_callSiteAt? p) ?_
  intro p hp site
  exact siteAt_of_callSiteAt? (Place.mem_places.mp hp)

/-- A caller that a call site names is an entity of the file. -/
theorem exists_mem_entities_of_caller {file : ParsedFile} {site : CallSite}
    (hsite : site ∈ file.callSites) {id : String} (h : site.caller = some id) :
    ∃ e ∈ file.entities, e.id = id := by
  rw [callSites_eq, List.mem_filterMap] at hsite
  obtain ⟨p, hp, hat⟩ := hsite
  have hcaller := (siteAt_of_callSiteAt? (Place.mem_places.mp hp) hat).caller id
  obtain ⟨_, e, _, _, he, hid⟩ := hcaller.mp h
  exact ⟨e, he, hid⟩

end Script.ParsedFile

namespace Catalog

/-- The catalog of some files knows every caller that a call site of theirs names. -/
theorem indexOf?_caller {files : List ParsedFile} {file : ParsedFile} (hfile : file ∈ files)
    {site : CallSite} (hsite : site ∈ file.callSites) {id : String} (h : site.caller = some id) :
    ∃ i e, (ofFiles files).indexOf? id = some i ∧ (ofFiles files).get? i = some e ∧ e.id = id := by
  obtain ⟨e, he, rfl⟩ := ParsedFile.exists_mem_entities_of_caller hsite h
  -- The catalog keeps the first entity of every id, which need not be this one.
  obtain ⟨kept, hkept, hid⟩ := exists_mem_ofList (List.mem_flatMap.mpr ⟨file, hfile, he⟩)
  obtain ⟨i, hi⟩ := Array.mem_iff_getElem?.mp hkept
  exact ⟨i, kept, (indexOf?_eq_some (distinctIds_ofList _)).mpr ⟨kept, hi, hid⟩, hi, hid⟩

/-! ### Counting the sites without a caller -/

/-- Is there no entity that contains the call? -/
def isUncontained (c : Catalog) (site : CallSite) : Bool := (site.caller.bind c.indexOf?).isNone

/-- A call site of some files has no container exactly where it names no caller. -/
theorem isUncontained_ofFiles {files : List ParsedFile} {file : ParsedFile} (hfile : file ∈ files)
    {site : CallSite} (hsite : site ∈ file.callSites) :
    (ofFiles files).isUncontained site = site.caller.isNone := by
  unfold isUncontained
  cases hcaller : site.caller with
  | none => rfl
  | some id =>
      obtain ⟨i, _, hi, _⟩ := indexOf?_caller hfile hsite hcaller
      rw [Option.bind_some, hi]
      rfl

theorem uncontained_countsOf (c : Catalog) (policy : ResolutionPolicy) (file : ParsedFile)
    (site : CallSite) :
    (c.countsOf policy file site).uncontained = if c.isUncontained site then 1 else 0 := by
  unfold countsOf isUncontained
  cases site.caller.bind c.indexOf? with
  | none => rfl
  | some caller =>
      dsimp only
      cases c.resolve policy site.callee file.path <;> rfl

theorem uncontained_resolveSite (c : Catalog) (policy : ResolutionPolicy) (file : ParsedFile)
    (acc : List PendingCall × Diagnostics) (site : CallSite) :
    (c.resolveSite policy file acc site).2.uncontained =
      acc.2.uncontained + if c.isUncontained site then 1 else 0 := by
  rw [resolveSite_snd, ← c.uncontained_countsOf policy file]
  rfl

theorem uncontained_sum_countsOf (c : Catalog) (policy : ResolutionPolicy) (file : ParsedFile)
    (sites : List CallSite) :
    (sites.map (c.countsOf policy file)).sum.uncontained = sites.countP c.isUncontained := by
  induction sites with
  | nil => rfl
  | cons site sites ih =>
      rw [List.countP_cons, ← ih, ← c.uncontained_countsOf policy file, Nat.add_comm]
      rfl

end Catalog

namespace Graph

theorem uncontained_build (c : Catalog) (policy : ResolutionPolicy) (files : List ParsedFile) :
    (build c policy files).2.uncontained =
      (files.flatMap (·.callSites)).countP c.isUncontained := by
  have hcalls : (build c policy files).2.uncontained =
      (files.map (c.fileCounts policy)).sum.uncontained := by
    rw [← calls_build]
    rfl
  rw [hcalls, List.countP_flatMap]
  -- A file adds no such sites but those among its call sites.
  refine List.sum_hom_rel files (r := fun (d : Diagnostics) n => d.uncontained = n) rfl ?_
  intro file d n h
  rw [Function.comp_apply, ← c.uncontained_sum_countsOf policy file, ← h]
  simp [Catalog.fileCounts]

/-- The sites that are counted as uncontained are those that name no caller. -/
theorem uncontained_buildFromFiles (policy : ResolutionPolicy) (files : List ParsedFile) :
    (buildFromFiles policy files).2.uncontained =
      (files.flatMap (·.callSites)).countP (·.caller.isNone) := by
  unfold buildFromFiles
  rw [uncontained_build]
  apply List.countP_congr
  intro site hsite
  obtain ⟨file, hfile, hsite⟩ := List.mem_flatMap.mp hsite
  rw [Catalog.isUncontained_ofFiles hfile hsite]

/-- **The entities of a file and the callers of its calls agree**, for every tree:

* the call sites of a file are those of its calls with a named callee, in document
  order, and each names the entity found at the innermost function above the call that
  has an identity, or nobody where there is none (`Script.ParsedFile.SiteAt`);
* whatever files are put together, every caller that is named is found in their catalog;
* a site is counted as uncontained exactly when it names no caller, whatever was counted
  before it;
* and the count for all files is the number of such sites. -/
theorem callers_are_entities :
    (∀ file : ParsedFile, List.Forall₂ file.SiteAt file.callSites
      ((Place.root file.tree).places.filter Place.isNamedCall)) ∧
    (∀ files : List ParsedFile, ∀ file ∈ files, ∀ site ∈ file.callSites,
      (∀ id, site.caller = some id → ∃ i e, (Catalog.ofFiles files).indexOf? id = some i ∧
        (Catalog.ofFiles files).get? i = some e ∧ e.id = id) ∧
      ∀ policy acc, ((Catalog.ofFiles files).resolveSite policy file acc site).2.uncontained =
        acc.2.uncontained + if site.caller = none then 1 else 0) ∧
    ∀ policy files, (buildFromFiles policy files).2.uncontained =
      (files.flatMap (·.callSites)).countP (·.caller.isNone) := by
  refine ⟨ParsedFile.forall₂_siteAt, ?_, uncontained_buildFromFiles⟩
  intro files file hfile site hsite
  refine ⟨fun id => Catalog.indexOf?_caller hfile hsite, ?_⟩
  intro policy acc
  rw [Catalog.uncontained_resolveSite, Catalog.isUncontained_ofFiles hfile hsite]
  simp only [Option.isNone_iff_eq_none]

/-- A function that is bound to `f` through parentheses, with a call of `g` below a method
whose name is computed and below a function without a name. Another call of `g` stands
outside. -/
def passedOver : ParsedFile where
  path := "a.js"
  group := "."
  language := .javaScript
  source := ""
  tree :=
    let call (line : Nat) : Script.Node :=
      .mk .callExpression none "g()" line line [.mk .identifier (some .callee) "g" line line []]
    let method : Script.Node :=
      .mk .methodDefinition none "" 2 4
        [.mk (.other "computed") (some .name) "[k]" 2 2 [], .mk .arrowFunction none "" 3 3 [call 3]]
    .mk (.other "program") none "" 1 6
      [.mk .variableDeclarator none "" 1 5
        [.mk .identifier (some .name) "f" 1 1 [],
          .mk .parenthesized (some .value) "" 1 5 [.mk .functionExpression none "" 1 5 [method]]],
        call 6]
  contentHash := 0

theorem callers_are_entities_passedOver :
    passedOver.callSites.map (·.caller) = [some "a.js:f:1", none] ∧
      (buildFromFiles .allMatches [passedOver]).2.uncontained = 1 := by
  refine ⟨by decide +kernel, ?_⟩
  rw [callers_are_entities.2.2 .allMatches [passedOver]]
  decide +kernel

end Graph

end CallAtlas
