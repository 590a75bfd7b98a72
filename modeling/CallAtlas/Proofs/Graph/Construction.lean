import Mathlib.Data.List.Infix
import Mathlib.Order.Bounds.Basic
import CallAtlas.Graph.Construction
import CallAtlas.Proofs.Graph.Adjacency
import CallAtlas.Proofs.Script.Sweep

/-!
# The graph of some files is that of their calls

An **occurrence** is a place in one of several files. `MakesCall` says, of an
occurrence alone, which entities a call there joins: it looks at the node, at what
is read upwards from it and at the catalog, but at no walk, no list of call sites
and no graph. The graph that is built has an edge exactly where some occurrence
makes the call, and the line of the edge is that of the first one.

**One list of links.** Building resolves file by file, call site by call site and
target by target, and links as it goes. The three nested loops come down to one
(`build_eq_linkAll`): the links asked for, occurrence by occurrence in document
order, are offered to the graph, which keeps the first of every pair. What is left
is to say what an occurrence asks for (`mem_linksAt`), and that the caller it
names is always in the catalog (`exists_indexOf?_of_enclosing?`).
-/

namespace CallAtlas

open Script (ParsedFile CallSite Place Visit Identity)

/-! ### Offering links one after the other -/

/-- The first of every key, when the items come from sources that are listed in
order: it comes from the first source that has the key. -/
theorem mem_firstByKey_flatMap {α β κ : Type} [DecidableEq κ] {key : α → κ} {R : β → β → Prop}
    (hasymm : ∀ x y, R x y → ¬ R y x) {sources : List β} (hsorted : sources.Pairwise R)
    {items : β → List α} {a : α} :
    a ∈ firstByKey key (sources.flatMap items) ↔
      ∃ x ∈ sources, (items x).find? (fun b => key b == key a) = some a ∧
        ∀ y ∈ sources, (∃ b ∈ items y, key b = key a) → y = x ∨ R x y := by
  have hnone : ∀ y, (items y).find? (fun b => key b == key a) = none ↔
      ¬ ∃ b ∈ items y, key b = key a := by
    intro y
    rw [List.find?_eq_none]
    simp
  rw [mem_firstByKey, List.find?_flatMap, List.findSome?_eq_some_iff]
  constructor
  · intro h
    obtain ⟨before, x, after, rfl, hx, hbefore⟩ := h
    refine ⟨x, by simp, hx, ?_⟩
    intro y hy hkey
    rcases List.mem_append.mp hy with hy | hy
    · exact absurd hkey ((hnone y).mp (hbefore y hy))
    · rcases List.mem_cons.mp hy with rfl | hy
      · exact Or.inl rfl
      · exact Or.inr ((List.pairwise_cons.mp (List.pairwise_append.mp hsorted).2.1).1 y hy)
  · intro h
    obtain ⟨x, hx, hfind, hfirst⟩ := h
    obtain ⟨before, after, rfl⟩ := List.append_of_mem hx
    refine ⟨before, x, after, rfl, hfind, ?_⟩
    intro y hy
    rw [hnone]
    intro hkey
    -- A source before `x` that has the key would come both before and after `x`.
    have hyx : R y x :=
      (List.pairwise_append.mp hsorted).2.2 y hy x List.mem_cons_self
    rcases hfirst y (List.mem_append_left _ hy) hkey with rfl | hxy
    · exact hasymm y y hyx hyx
    · exact hasymm y x hyx hxy

namespace Graph

/-- The graph after links were offered one after the other. -/
def linkAll (g : Graph) (ls : List Link) : Graph :=
  ls.foldl (fun g l => g.link l.source l.target l.line) g

theorem linkAll_append (g : Graph) (ls ms : List Link) :
    g.linkAll (ls ++ ms) = (g.linkAll ls).linkAll ms :=
  List.foldl_append

theorem toList_links_linkAll (g : Graph) (ls : List Link) :
    (g.linkAll ls).links.toList = ls.foldl (pushNew Link.pair) g.links.toList := by
  induction ls generalizing g with
  | nil => rfl
  | cons l ls ih =>
      rw [List.foldl_cons, ← toList_links_link, ← ih]
      rfl

theorem unlinked_linkAll (g : Graph) (ls : List Link) :
    (g.linkAll ls).entities.map Entity.unlinked = g.entities.map Entity.unlinked := by
  induction ls generalizing g with
  | nil => rfl
  | cons l ls ih => exact (ih (g.link l.source l.target l.line)).trans (unlinked_link g _ _ _)

theorem WellFormed.linkAll {g : Graph} (hg : g.WellFormed) {ls : List Link}
    (h : ∀ l ∈ ls, l.source < g.entityCount ∧ l.target < g.entityCount) :
    (g.linkAll ls).WellFormed := by
  induction ls generalizing g with
  | nil => exact hg
  | cons l ls ih =>
      have hl := h l List.mem_cons_self
      refine ih (hg.link hl.1 hl.2 l.line) fun m hm => ?_
      rw [entityCount_link]
      exact h m (List.mem_cons_of_mem l hm)

end Graph

/-! ### From loops to one list -/

/-- The links that a resolved call asks for. -/
def PendingCall.links (call : PendingCall) : List Link :=
  call.targets.map fun target => ⟨call.caller, target, call.line⟩

/-- The links that a call site of a file asks for. -/
def Catalog.linksOf (c : Catalog) (policy : ResolutionPolicy) (file : ParsedFile)
    (site : CallSite) : List Link :=
  match site.caller.bind c.indexOf? with
  | none => []
  | some caller =>
      (c.candidates policy site.callee file.path).map fun target => ⟨caller, target, site.line⟩

theorem Catalog.links_resolveSite (c : Catalog) (policy : ResolutionPolicy) (file : ParsedFile)
    (acc : List PendingCall × Diagnostics) (site : CallSite) :
    (c.resolveSite policy file acc site).1.flatMap PendingCall.links =
      acc.1.flatMap PendingCall.links ++ c.linksOf policy file site := by
  unfold resolveSite linksOf
  cases hcaller : site.caller.bind c.indexOf? with
  | none => simp
  | some caller =>
      have htargets : (c.resolve policy site.callee file.path).targets =
          c.candidates policy site.callee file.path :=
        Resolution.targets_ofCandidates _
      dsimp only
      rw [htargets]
      cases c.candidates policy site.callee file.path with
      | nil => simp
      | cons target targets => simp [PendingCall.links]

theorem Catalog.links_foldl_resolveSite (c : Catalog) (policy : ResolutionPolicy)
    (file : ParsedFile) (sites : List CallSite) (acc : List PendingCall × Diagnostics) :
    (sites.foldl (c.resolveSite policy file) acc).1.flatMap PendingCall.links =
      acc.1.flatMap PendingCall.links ++ sites.flatMap (c.linksOf policy file) := by
  induction sites generalizing acc with
  | nil => simp
  | cons site sites ih =>
      rw [List.foldl_cons, ih, links_resolveSite, List.flatMap_cons, List.append_assoc]

theorem Catalog.links_resolveFile (c : Catalog) (policy : ResolutionPolicy) (file : ParsedFile) :
    (c.resolveFile policy file).1.flatMap PendingCall.links =
      file.callSites.flatMap (c.linksOf policy file) :=
  c.links_foldl_resolveSite policy file file.callSites ([], { dynamic := file.dynamicCalls })

namespace Graph

/-- A loop whose every round offers some links offers all of them. -/
theorem foldl_fst_eq_linkAll {β : Type} {step : Graph × Diagnostics → β → Graph × Diagnostics}
    {links : β → List Link} (h : ∀ acc b, (step acc b).1 = acc.1.linkAll (links b))
    (bs : List β) (acc : Graph × Diagnostics) :
    (bs.foldl step acc).1 = acc.1.linkAll (bs.flatMap links) := by
  induction bs generalizing acc with
  | nil => rfl
  | cons b bs ih => rw [List.foldl_cons, ih, h, List.flatMap_cons, linkAll_append]

theorem linkTarget_fst (caller line : Nat) (acc : Graph × Diagnostics) (target : Nat) :
    (linkTarget caller line acc target).1 = acc.1.linkAll [⟨caller, target, line⟩] := by
  unfold linkTarget
  dsimp only
  split
  · rename_i h
    exact (link_of_linked h line).symm
  · rfl

theorem linkCall_fst (acc : Graph × Diagnostics) (call : PendingCall) :
    (linkCall acc call).1 = acc.1.linkAll call.links := by
  unfold linkCall PendingCall.links
  rw [foldl_fst_eq_linkAll (linkTarget_fst call.caller call.line), List.map_eq_flatMap]

theorem linkFile_fst (acc : Graph × Diagnostics) (found : List PendingCall × Diagnostics) :
    (linkFile acc found).1 = acc.1.linkAll (found.1.flatMap PendingCall.links) :=
  foldl_fst_eq_linkAll linkCall_fst found.1 (acc.1, acc.2.merge found.2)

/-- Building offers the links of every call site, file by file. -/
theorem build_fst (c : Catalog) (policy : ResolutionPolicy) (files : List ParsedFile) :
    (build c policy files).1 =
      (ofCatalog c).linkAll (files.flatMap fun f => f.callSites.flatMap (c.linksOf policy f)) := by
  unfold build
  rw [foldl_fst_eq_linkAll linkFile_fst, List.flatMap_map]
  simp only [Catalog.links_resolveFile]

end Graph

/-! ### Occurrences -/

/-- A place in one of several files. -/
structure Occurrence where
  /-- The position of the file. -/
  index : Nat
  file : ParsedFile
  place : Place

namespace Occurrence

/-- The line on which the node starts. -/
def line (o : Occurrence) : Nat := o.place.node.startLine

/-- Is it a place of the file at its position? -/
def In (files : List ParsedFile) (o : Occurrence) : Prop :=
  files[o.index]? = some o.file ∧ (Place.root o.file.tree).Covers o.place

/-- The order of occurrences: by file, then by the place in the document. -/
def Before (o o' : Occurrence) : Prop :=
  o.index < o'.index ∨ (o.index = o'.index ∧ o.place.path < o'.place.path)

theorem Before.asymm {o o' : Occurrence} (h : o.Before o') : ¬ o'.Before o := by
  rintro (hlt | ⟨heq, hlt⟩)
  · rcases h with h | ⟨h, _⟩ <;> omega
  · rcases h with h | ⟨_, h⟩
    · omega
    · exact List.lt_asymm h hlt

end Occurrence

/-- Every occurrence of some files, in order. -/
def occurrences (files : List ParsedFile) : List Occurrence :=
  files.zipIdx.flatMap fun x => (Place.root x.1.tree).places.map fun p => ⟨x.2, x.1, p⟩

theorem mem_occurrences {files : List ParsedFile} {o : Occurrence} :
    o ∈ occurrences files ↔ o.In files := by
  unfold occurrences Occurrence.In
  rw [List.mem_flatMap]
  constructor
  · intro h
    obtain ⟨x, hx, ho⟩ := h
    obtain ⟨p, hp, rfl⟩ := List.mem_map.mp ho
    exact ⟨List.mem_zipIdx_iff_getElem?.mp hx, Place.mem_places.mp hp⟩
  · intro h
    obtain ⟨hfile, hplace⟩ := h
    exact ⟨(o.file, o.index), List.mem_zipIdx_iff_getElem?.mpr hfile,
      List.mem_map.mpr ⟨o.place, Place.mem_places.mpr hplace, rfl⟩⟩

theorem occurrences_pairwise (files : List ParsedFile) :
    (occurrences files).Pairwise Occurrence.Before := by
  unfold occurrences
  rw [List.pairwise_flatMap]
  refine ⟨?_, (Script.pairwise_zipIdx files).imp ?_⟩
  · intro x _
    rw [List.pairwise_map]
    exact (Place.places_pairwise_path _).imp fun hlt => Or.inr ⟨rfl, hlt⟩
  · intro x y hlt o ho o' ho'
    obtain ⟨_, _, rfl⟩ := List.mem_map.mp ho
    obtain ⟨_, _, rfl⟩ := List.mem_map.mp ho'
    exact Or.inl hlt

/-! ### What an occurrence asks for -/

/-- The links that an occurrence asks for. -/
def Catalog.linksAt (c : Catalog) (policy : ResolutionPolicy) (o : Occurrence) : List Link :=
  (o.file.callSiteAt? o.place.visit).toList.flatMap (c.linksOf policy o.file)

theorem callSites_flatMap (file : ParsedFile) {α : Type} (f : CallSite → List α) :
    file.callSites.flatMap f =
      (Place.root file.tree).places.flatMap fun p =>
        (file.callSiteAt? p.visit).toList.flatMap f := by
  rw [file.callSites_eq_filterMap, Script.walk_eq, List.filterMap_map, List.filterMap_eq_flatMap_toList, List.flatMap_assoc]
  rfl

/-- The call sites of all files ask for what the occurrences do, in the same
order. -/
theorem flatMap_occurrences (c : Catalog) (policy : ResolutionPolicy) (files : List ParsedFile) :
    (occurrences files).flatMap (c.linksAt policy) =
      files.flatMap fun f => f.callSites.flatMap (c.linksOf policy f) := by
  conv_rhs => rw [← List.zipIdx_map_fst 0 files]
  unfold occurrences
  rw [List.flatMap_assoc, List.flatMap_map]
  simp only [List.flatMap_map, callSites_flatMap]
  rfl

namespace Graph

/-- **Building is one loop** over the occurrences, which offers what each of them
asks for. -/
theorem build_eq_linkAll (c : Catalog) (policy : ResolutionPolicy) (files : List ParsedFile) :
    (build c policy files).1 =
      (ofCatalog c).linkAll ((occurrences files).flatMap (c.linksAt policy)) := by
  rw [build_fst, flatMap_occurrences]

end Graph

/-- A call site is found at a call whose callee has a name. -/
theorem callSiteAt?_eq_some {file : ParsedFile} {p : Place} {site : CallSite} :
    file.callSiteAt? p.visit = some site ↔
      p.node.kind = .callExpression ∧ ∃ callee receiver,
        p.node.callee? = some (callee, receiver) ∧
          site = ⟨p.enclosing?.map file.idOf, callee, receiver, p.node.startLine⟩ := by
  unfold ParsedFile.callSiteAt? Place.visit
  dsimp only
  split
  · rename_i hkind
    rw [Option.map_eq_some_iff]
    constructor
    · intro h
      obtain ⟨⟨callee, receiver⟩, hcallee, rfl⟩ := h
      exact ⟨hkind, callee, receiver, hcallee, rfl⟩
    · intro h
      obtain ⟨_, callee, receiver, hcallee, rfl⟩ := h
      exact ⟨(callee, receiver), hcallee, rfl⟩
  · rename_i hkind
    simp [hkind]

theorem Catalog.mem_linksOf {c : Catalog} {policy : ResolutionPolicy} {file : ParsedFile}
    {site : CallSite} {l : Link} :
    l ∈ c.linksOf policy file site ↔
      site.caller.bind c.indexOf? = some l.source ∧
        l.target ∈ c.candidates policy site.callee file.path ∧ l.line = site.line := by
  unfold linksOf
  obtain ⟨source, target, line⟩ := l
  cases hcaller : site.caller.bind c.indexOf? with
  | none => simp
  | some caller =>
      simp only [List.mem_map, Link.mk.injEq, Option.some.injEq]
      constructor
      · intro h
        obtain ⟨_, htarget, rfl, rfl, rfl⟩ := h
        exact ⟨rfl, htarget, rfl⟩
      · intro h
        obtain ⟨rfl, htarget, rfl⟩ := h
        exact ⟨target, htarget, rfl, rfl, rfl⟩

/-- An occurrence asks for a link where it is a call with a named callee, within a
function that is in the catalog. -/
theorem Catalog.mem_linksAt {c : Catalog} {policy : ResolutionPolicy} {o : Occurrence} {l : Link} :
    l ∈ c.linksAt policy o ↔
      o.place.node.kind = .callExpression ∧
        ∃ callee receiver identity, o.place.node.callee? = some (callee, receiver) ∧
          o.place.enclosing? = some identity ∧
          c.indexOf? (o.file.idOf identity) = some l.source ∧
          l.target ∈ c.candidates policy callee o.file.path ∧ l.line = o.line := by
  unfold linksAt
  simp only [List.mem_flatMap, Option.mem_toList, callSiteAt?_eq_some, mem_linksOf]
  constructor
  · intro h
    obtain ⟨_, ⟨hkind, callee, receiver, hcallee, rfl⟩, hsource, htarget, hline⟩ := h
    obtain ⟨_, hcaller, hindex⟩ := Option.bind_eq_some_iff.mp hsource
    obtain ⟨identity, hencl, rfl⟩ := Option.map_eq_some_iff.mp hcaller
    exact ⟨hkind, callee, receiver, identity, hcallee, hencl, hindex, htarget, hline⟩
  · intro h
    obtain ⟨hkind, callee, receiver, identity, hcallee, hencl, hindex, htarget, hline⟩ := h
    refine ⟨_, ⟨hkind, callee, receiver, hcallee, rfl⟩, ?_, htarget, hline⟩
    rw [hencl]
    exact hindex

/-- An occurrence asks for links with no line but its own. -/
theorem Catalog.line_of_mem_linksAt {c : Catalog} {policy : ResolutionPolicy} {o : Occurrence}
    {l : Link} (h : l ∈ c.linksAt policy o) : l.line = o.line := by
  obtain ⟨_, _, _, _, _, _, _, _, hline⟩ := mem_linksAt.mp h
  exact hline

theorem Catalog.eq_of_mem_linksAt {c : Catalog} {policy : ResolutionPolicy} {o : Occurrence}
    {l : Link} {i j : Nat} (h : l ∈ c.linksAt policy o) (hpair : l.pair = (i, j)) :
    l = ⟨i, j, o.line⟩ := by
  have hline := line_of_mem_linksAt h
  cases l
  cases hpair
  cases hline
  rfl

/-- The only link of its pair that an occurrence asks for is the first one. -/
theorem Catalog.find?_linksAt {c : Catalog} {policy : ResolutionPolicy} {o : Occurrence}
    {l : Link} {samePair : Link → Bool} (h : ∀ m, samePair m = true ↔ m.pair = l.pair) :
    (c.linksAt policy o).find? samePair = some l ↔ l ∈ c.linksAt policy o := by
  constructor
  · exact List.mem_of_find?_eq_some
  · intro hl
    obtain ⟨m, hm⟩ : ∃ m, (c.linksAt policy o).find? samePair = some m :=
      Option.isSome_iff_exists.mp (List.find?_isSome.mpr ⟨l, hl, (h l).mpr rfl⟩)
    have hpair : m.pair = l.pair := (h m).mp (List.find?_some hm)
    rw [hm, eq_of_mem_linksAt hl rfl, eq_of_mem_linksAt (List.mem_of_find?_eq_some hm) hpair]

namespace Graph

/-- A graph keeps the first link asked for of every pair. -/
theorem toList_links_build (c : Catalog) (policy : ResolutionPolicy) (files : List ParsedFile) :
    (build c policy files).1.links.toList =
      firstByKey Link.pair ((occurrences files).flatMap (c.linksAt policy)) := by
  rw [build_eq_linkAll, toList_links_linkAll, links_ofCatalog]
  rfl

theorem mem_links_build {c : Catalog} {policy : ResolutionPolicy} {files : List ParsedFile}
    {l : Link} :
    l ∈ (build c policy files).1.links ↔
      ∃ o, o.In files ∧ l ∈ c.linksAt policy o ∧
        ∀ o', o'.In files → (∃ m ∈ c.linksAt policy o', m.pair = l.pair) →
          o' = o ∨ o.Before o' := by
  rw [← Array.mem_toList_iff, toList_links_build,
    mem_firstByKey_flatMap (fun _ _ => Occurrence.Before.asymm) (occurrences_pairwise files)]
  simp only [mem_occurrences]
  refine exists_congr fun o => and_congr_right fun _ => and_congr_left fun _ => ?_
  exact Catalog.find?_linksAt fun m => by simp

end Graph

/-! ### Callers are known -/

/-- The function around a place is an entity of its file. -/
theorem exists_mem_entities_of_enclosing? {file : ParsedFile} {p : Place} {identity : Identity}
    (hp : (Place.root file.tree).Covers p) (h : p.enclosing? = some identity) :
    ∃ e ∈ file.entities, e.id = file.idOf identity := by
  induction hp with
  | refl => cases h
  | @part q i n hq _ ih =>
      rw [Place.enclosing?_part] at h
      cases hid : q.identity? with
      | none =>
          rw [hid, Option.none_or] at h
          exact ih h
      | some found =>
          -- The node above is the function, and the walk finds it as an entity.
          rw [hid, Option.some_or] at h
          cases h
          have hkind : q.visit.node.kind.isFunctionLike = true :=
            Script.Node.isFunctionLike_of_identity? hid
          refine ⟨Entity.make identity.name file.path file.group identity.kind identity.startLine
            q.node.endLine q.node.parameterTexts, ?_, rfl⟩
          rw [file.entities_eq_filterMap, Script.walk_eq, List.mem_filterMap]
          refine ⟨q.visit, List.mem_map_of_mem (Place.mem_places.mpr hq), ?_⟩
          have hvisit : q.visit.identity? = some identity := hid
          unfold ParsedFile.entityAt?
          rw [if_pos hkind, hvisit]
          rfl

/-- The caller that an occurrence names is in the catalog of the files. -/
theorem exists_indexOf?_of_enclosing? {files : List ParsedFile} {o : Occurrence}
    {identity : Identity} (ho : o.In files) (h : o.place.enclosing? = some identity) :
    ∃ i, (Catalog.ofFiles files).indexOf? (o.file.idOf identity) = some i := by
  obtain ⟨hfile, hplace⟩ := ho
  obtain ⟨e, he, hid⟩ := exists_mem_entities_of_enclosing? hplace h
  have hoffered : e ∈ files.flatMap (·.entities) :=
    List.mem_flatMap.mpr ⟨o.file, List.mem_of_getElem? hfile, he⟩
  obtain ⟨e', he', hid'⟩ := Catalog.exists_mem_ofList hoffered
  obtain ⟨i, hi⟩ := Array.mem_iff_getElem?.mp he'
  exact ⟨i, (Catalog.indexOf?_eq_some (Catalog.distinctIds_ofList _)).mpr ⟨e', hi, hid'.trans hid⟩⟩

/-! ### Calls by id -/

/-- A call is made here, from the entity with the first id to the one with the
second: the node is a call whose callee has a name, the innermost named function
around it has the first id, and the second belongs to an entity with the callee's
name that the policy admits. -/
def Occurrence.Calls (c : Catalog) (policy : ResolutionPolicy) (s t : String) (o : Occurrence) :
    Prop :=
  o.place.node.kind = .callExpression ∧
    ∃ callee receiver identity, o.place.node.callee? = some (callee, receiver) ∧
      o.place.enclosing? = some identity ∧ o.file.idOf identity = s ∧
      ∃ e ∈ c.entities, e.id = t ∧ e.name = callee ∧ c.Admits policy callee o.file.path e

/-- Some file makes this call at this occurrence. -/
def MakesCall (policy : ResolutionPolicy) (files : List ParsedFile) (s t : String)
    (o : Occurrence) : Prop :=
  o.In files ∧ o.Calls (.ofFiles files) policy s t

/-- A call is made where the link between the two positions is asked for. -/
theorem makesCall_iff {policy : ResolutionPolicy} {files : List ParsedFile} {s t : String}
    {o : Occurrence} (ho : o.In files) :
    MakesCall policy files s t o ↔
      ∃ i j, (Catalog.ofFiles files).indexOf? s = some i ∧
        (Catalog.ofFiles files).indexOf? t = some j ∧
        ⟨i, j, o.line⟩ ∈ (Catalog.ofFiles files).linksAt policy o := by
  have hids : ∀ {id : String} {i : Nat}, (Catalog.ofFiles files).indexOf? id = some i ↔
      ∃ e, (Catalog.ofFiles files).entities[i]? = some e ∧ e.id = id :=
    Catalog.indexOf?_eq_some (Catalog.distinctIds_ofList _)
  simp only [Catalog.mem_linksAt, Catalog.mem_candidates]
  constructor
  · intro h
    obtain ⟨_, hkind, callee, receiver, identity, hcallee, hencl, hs, htarget⟩ := h
    obtain ⟨e, he, ht, hname, hadmits⟩ := htarget
    obtain ⟨i, hi⟩ := exists_indexOf?_of_enclosing? ho hencl
    obtain ⟨j, hj⟩ := Array.mem_iff_getElem?.mp he
    exact ⟨i, j, hs ▸ hi, hids.mpr ⟨e, hj, ht⟩, hkind, callee, receiver, identity, hcallee,
      hencl, hi, ⟨e, hj, hname, hadmits⟩, trivial⟩
  · rintro ⟨i, j, hs, ht, hkind, callee, receiver, identity, hcallee, hencl, hi,
      ⟨e, hj, hname, hadmits⟩, _⟩
    -- Position `i` has one entity, so the id that was looked up is `s`; likewise for `j`.
    obtain ⟨e₁, he₁, hid₁⟩ := hids.mp hs
    obtain ⟨e₂, he₂, hid₂⟩ := hids.mp hi
    obtain ⟨e₃, he₃, hid₃⟩ := hids.mp ht
    rw [he₁] at he₂
    rw [hj] at he₃
    cases he₂
    cases he₃
    exact ⟨ho, hkind, callee, receiver, identity, hcallee, hencl, hid₂.symm.trans hid₁, e,
      Array.mem_of_getElem? hj, hid₃, hname, hadmits⟩

/-! ### The graph that is built -/

/-- An entity of a file is made from an identity that was found in it. -/
theorem exists_make_of_mem_entities {file : ParsedFile} {e : Entity} (he : e ∈ file.entities) :
    ∃ (identity : Identity) (endLine : Nat) (parameters : List String),
      e = .make identity.name file.path file.group identity.kind identity.startLine endLine
        parameters := by
  rw [file.entities_eq_filterMap] at he
  obtain ⟨v, _, he⟩ := List.mem_filterMap.mp he
  unfold ParsedFile.entityAt? at he
  split at he
  · obtain ⟨identity, _, rfl⟩ := Option.map_eq_some_iff.mp he
    exact ⟨identity, _, _, rfl⟩
  · cases he

theorem Catalog.exists_mem_entities_of_mem_ofFiles {files : List ParsedFile} {e : Entity}
    (he : e ∈ (ofFiles files).entities) : ∃ f ∈ files, e ∈ f.entities :=
  List.mem_flatMap.mp (List.mem_of_find?_eq_some (mem_ofList.mp he))

/-- Entities have no calls recorded when they are found. -/
theorem unlinked_ofFiles (files : List ParsedFile) :
    (Catalog.ofFiles files).entities.map Entity.unlinked = (Catalog.ofFiles files).entities := by
  have hfound : ∀ e ∈ (Catalog.ofFiles files).entities.toList, e.unlinked = e := by
    intro e he
    obtain ⟨f, _, he⟩ := Catalog.exists_mem_entities_of_mem_ofFiles (Array.mem_toList_iff.mp he)
    obtain ⟨_, _, _, rfl⟩ := exists_make_of_mem_entities he
    rfl
  apply Array.ext'
  rw [Array.toList_map, List.map_congr_left hfound, List.map_id']

namespace Graph

theorem unlinked_buildFromFiles (policy : ResolutionPolicy) (files : List ParsedFile) :
    (buildFromFiles policy files).1.entities.map Entity.unlinked =
      (Catalog.ofFiles files).entities := by
  have hidem : Entity.unlinked ∘ Entity.unlinked = Entity.unlinked := rfl
  unfold buildFromFiles
  rw [build_eq_linkAll, unlinked_linkAll, entities_ofCatalog, Array.map_map, hidem, unlinked_ofFiles]

/-- Positions in the graph are positions in the catalog. -/
theorem indexOf?_buildFromFiles (policy : ResolutionPolicy) (files : List ParsedFile)
    (id : String) :
    (buildFromFiles policy files).1.indexOf? id = (Catalog.ofFiles files).indexOf? id := by
  have hids : (buildFromFiles policy files).1.entities.toList.map Entity.id =
      (Catalog.ofFiles files).entities.toList.map Entity.id := by
    rw [← unlinked_buildFromFiles policy files, Array.toList_map, List.map_map]
    rfl
  rw [indexOf?, Catalog.indexOf?, Graph.byId_eq, Catalog.byId_eq, hids]

theorem wellFormed_build {c : Catalog} (hc : DistinctIds c.entities) (policy : ResolutionPolicy)
    (files : List ParsedFile) : (build c policy files).1.WellFormed := by
  have hcount : (ofCatalog c).entityCount = c.entities.size := by simp [entityCount]
  rw [build_eq_linkAll]
  refine (wellFormed_ofCatalog hc).linkAll ?_
  intro l hl
  obtain ⟨o, _, hl⟩ := List.mem_flatMap.mp hl
  obtain ⟨_, _, _, _, _, _, hsource, htarget, _⟩ := Catalog.mem_linksAt.mp hl
  obtain ⟨_, hs, _⟩ := (Catalog.indexOf?_eq_some hc).mp hsource
  obtain ⟨_, ht, _⟩ := Catalog.mem_candidates.mp htarget
  rw [hcount]
  exact ⟨(Array.getElem?_eq_some_iff.mp hs).1, (Array.getElem?_eq_some_iff.mp ht).1⟩

theorem wellFormed_buildFromFiles (policy : ResolutionPolicy) (files : List ParsedFile) :
    (buildFromFiles policy files).1.WellFormed :=
  wellFormed_build (Catalog.distinctIds_ofList _) policy files

/-- An edge stands for the first of the calls between its ends. -/
theorem mem_edges_buildFromFiles {policy : ResolutionPolicy} {files : List ParsedFile}
    {s t : String} {line : Nat} :
    ⟨s, t, line⟩ ∈ (buildFromFiles policy files).1.edges ↔
      ∃ o, MakesCall policy files s t o ∧ o.line = line ∧
        ∀ o', MakesCall policy files s t o' → o' = o ∨ o.Before o' := by
  rw [(wellFormed_buildFromFiles policy files).mem_edges_iff]
  simp only [indexOf?_buildFromFiles]
  constructor
  · intro h
    obtain ⟨i, j, hs, ht, hl⟩ := h
    obtain ⟨o, ho, hl, hfirst⟩ := mem_links_build.mp hl
    obtain rfl : line = o.line := Catalog.line_of_mem_linksAt hl
    refine ⟨o, (makesCall_iff ho).mpr ⟨i, j, hs, ht, hl⟩, rfl, ?_⟩
    intro o' ho'
    obtain ⟨i', j', hs', ht', hl'⟩ := (makesCall_iff ho'.1).mp ho'
    obtain rfl : i = i' := Option.some.inj (hs.symm.trans hs')
    obtain rfl : j = j' := Option.some.inj (ht.symm.trans ht')
    exact hfirst o' ho'.1 ⟨_, hl', rfl⟩
  · intro h
    obtain ⟨o, ho, rfl, hfirst⟩ := h
    obtain ⟨i, j, hs, ht, hl⟩ := (makesCall_iff ho.1).mp ho
    refine ⟨i, j, hs, ht, mem_links_build.mpr ⟨o, ho.1, hl, ?_⟩⟩
    rintro o' ho' ⟨m, hm, hpair⟩
    refine hfirst o' ((makesCall_iff ho').mpr ⟨i, j, hs, ht, ?_⟩)
    rwa [← Catalog.eq_of_mem_linksAt hm hpair]

/-- There is an edge exactly where a call is made. -/
theorem hasEdge_buildFromFiles {policy : ResolutionPolicy} {files : List ParsedFile}
    {s t : String} :
    (buildFromFiles policy files).1.hasEdge s t = true ↔ ∃ o, MakesCall policy files s t o := by
  have hg := wellFormed_buildFromFiles policy files
  rw [hasEdge_iff, ← hg.exists_mem_edges_iff]
  constructor
  · intro h
    obtain ⟨line, h⟩ := h
    obtain ⟨o, ho, _⟩ := mem_edges_buildFromFiles.mp h
    exact ⟨o, ho⟩
  · intro h
    obtain ⟨o, ho⟩ := h
    obtain ⟨i, j, hs, ht, hl⟩ := (makesCall_iff ho.1).mp ho
    -- The link kept for the pair need not be the one asked for here.
    have hasked : (⟨i, j, o.line⟩ : Link) ∈
        (occurrences files).flatMap ((Catalog.ofFiles files).linksAt policy) :=
      List.mem_flatMap.mpr ⟨o, mem_occurrences.mpr ho.1, hl⟩
    obtain ⟨m, hm, hpair⟩ := exists_mem_firstByKey Link.pair hasked
    rw [← toList_links_build, Array.mem_toList_iff] at hm
    obtain ⟨hi, hj⟩ := (Link.pair_eq_iff .downstream).mp hpair
    obtain ⟨i, j, line⟩ := m
    cases hi
    cases hj
    refine ⟨line, hg.mem_edges_iff.mpr ⟨_, _, ?_, ?_, hm⟩⟩
    · rw [indexOf?_buildFromFiles]
      exact hs
    · rw [indexOf?_buildFromFiles]
      exact ht

end Graph

/-! ### Lines -/

/-- A path without a colon can be read off an id. -/
theorem Entity.takeWhile_makeId {path : String} (h : ':' ∉ path.toList) (name : String)
    (line : Nat) : (makeId path name line).toList.takeWhile (· != ':') = path.toList := by
  have hchars : (makeId path name line).toList =
      path.toList ++ ':' :: (name ++ ":" ++ toString line).toList := by
    simp [makeId]
  have hne : ∀ a ∈ path.toList, (a != ':') = true := by
    intro a ha
    rw [bne_iff_ne]
    rintro rfl
    exact h ha
  rw [hchars, List.takeWhile_append_of_pos hne]
  simp

theorem Entity.path_eq_of_makeId_eq {path path' name name' : String} {line line' : Nat}
    (hpath : ':' ∉ path.toList) (hpath' : ':' ∉ path'.toList)
    (h : makeId path name line = makeId path' name' line') : path = path' := by
  have htake := congrArg (fun id => id.toList.takeWhile (· != ':')) h
  simp only [takeWhile_makeId hpath, takeWhile_makeId hpath'] at htake
  exact String.toList_injective htake

/-- Where paths have no colon, all calls from one entity are made under one path, whatever
the policies. -/
theorem MakesCall.path_eq {policy policy' : ResolutionPolicy} {files : List ParsedFile}
    (hcolon : ∀ f ∈ files, ':' ∉ f.path.toList) {s t t' : String} {o o' : Occurrence}
    (ho : MakesCall policy files s t o) (ho' : MakesCall policy' files s t' o') :
    o.file.path = o'.file.path := by
  obtain ⟨⟨hfile, _⟩, _, _, _, identity, _, _, hid, _⟩ := ho
  obtain ⟨⟨hfile', _⟩, _, _, _, identity', _, _, hid', _⟩ := ho'
  exact Entity.path_eq_of_makeId_eq (hcolon _ (List.mem_of_getElem? hfile))
    (hcolon _ (List.mem_of_getElem? hfile')) (hid.trans hid'.symm)

/-- Where paths are distinct and have no colon, all calls from one entity are made
in one file. -/
theorem MakesCall.file_eq {policy : ResolutionPolicy} {files : List ParsedFile}
    (hpaths : (files.map (·.path)).Nodup) (hcolon : ∀ f ∈ files, ':' ∉ f.path.toList)
    {s t t' : String} {o o' : Occurrence} (ho : MakesCall policy files s t o)
    (ho' : MakesCall policy files s t' o') : o.index = o'.index ∧ o.file = o'.file := by
  have hpath := ho.path_eq hcolon ho'
  have hfile := ho.1.1
  have hfile' := ho'.1.1
  have hlt : o.index < (files.map (·.path)).length := by
    rw [List.length_map]
    exact (List.getElem?_eq_some_iff.mp hfile).1
  have hindex : o.index = o'.index := by
    rw [← List.getElem?_inj hlt hpaths, List.getElem?_map, List.getElem?_map, hfile, hfile',
      Option.map_some, Option.map_some, hpath]
  refine ⟨hindex, ?_⟩
  rw [hindex, hfile'] at hfile
  exact (Option.some.inj hfile).symm

namespace Graph

/-- **The graph of some files is the graph of their calls**, for every list of
files and every policy:

* its catalog holds the first entity of every id, in order;
* its entities are those of the catalog, in the same order, with degrees;
* there is an edge exactly where some file makes the call;
* the line of an edge is that of the first such call, by file and then in document
  order;
* and it is the least line of all of them, where paths are distinct and have no
  colon and the lines of every tree fit its shape. -/
theorem buildFromFiles_exact (policy : ResolutionPolicy) (files : List ParsedFile) :
    (Catalog.ofFiles files).entities.toList =
      firstByKey Entity.id (files.flatMap (·.entities)) ∧
    (buildFromFiles policy files).1.entities.map Entity.unlinked =
      (Catalog.ofFiles files).entities ∧
    (∀ s t, (buildFromFiles policy files).1.hasEdge s t = true ↔
      ∃ o, MakesCall policy files s t o) ∧
    (∀ s t line, ⟨s, t, line⟩ ∈ (buildFromFiles policy files).1.edges ↔
      ∃ o, MakesCall policy files s t o ∧ o.line = line ∧
        ∀ o', MakesCall policy files s t o' → o' = o ∨ o.Before o') ∧
    ((files.map (·.path)).Nodup → (∀ f ∈ files, ':' ∉ f.path.toList) →
      (∀ f ∈ files, f.tree.WellPlaced) →
      ∀ s t line, ⟨s, t, line⟩ ∈ (buildFromFiles policy files).1.edges →
        IsLeast { l | ∃ o, MakesCall policy files s t o ∧ o.line = l } line) := by
  refine ⟨Catalog.toList_ofList _, unlinked_buildFromFiles policy files,
    fun s t => hasEdge_buildFromFiles, fun s t line => mem_edges_buildFromFiles, ?_⟩
  intro hpaths hcolon hplaced s t line hedge
  obtain ⟨o, ho, rfl, hfirst⟩ := mem_edges_buildFromFiles.mp hedge
  refine ⟨⟨o, ho, rfl⟩, ?_⟩
  rintro _ ⟨o', ho', rfl⟩
  -- Both calls are made in one file, where the first in document order starts first.
  obtain ⟨hindex, hfile⟩ := ho.file_eq hpaths hcolon ho'
  rcases hfirst o' ho' with rfl | hlt | ⟨_, hlt⟩
  · exact Nat.le_refl _
  · omega
  · have htree := hplaced o.file (List.mem_of_getElem? ho.1.1)
    exact htree.startLine_le_of_path_lt ho.1.2 (hfile ▸ ho'.1.2) hlt

/-- A function `f` with two calls of `g`; the first one, on line 2, stands in a
function without a name. -/
def callsTwice : ParsedFile where
  path := "a.js"
  group := "."
  language := .javaScript
  source := ""
  tree :=
    let call (line : Nat) : Script.Node :=
      .mk .callExpression none "g()" line line [.mk .identifier (some .callee) "g" line line []]
    .mk (.other "program") none "" 1 4
      [.mk .functionDeclaration none "" 1 4
        [.mk .identifier (some .name) "f" 1 1 [],
          .mk (.other "block") none "" 1 4 [.mk .arrowFunction none "" 2 2 [call 2], call 3]]]
  contentHash := 0

/-- The function `g`, on its own. -/
def isCalled : ParsedFile where
  path := "b.js"
  group := "."
  language := .javaScript
  source := ""
  tree :=
    .mk (.other "program") none "" 1 1
      [.mk .functionDeclaration none "" 1 1 [.mk .identifier (some .name) "g" 1 1 []]]
  contentHash := 0

theorem buildFromFiles_exact_callsTwice :
    (∀ f ∈ [callsTwice, isCalled], f.tree.WellPlaced) ∧
      IsLeast { l | ∃ o, MakesCall .preferSameFile [callsTwice, isCalled] "a.js:f:1" "b.js:g:1" o ∧
        o.line = l } 2 := by
  have hplaced : ∀ f ∈ [callsTwice, isCalled], f.tree.WellPlaced := by
    intro f hf
    apply Script.Node.Nested.wellPlaced
    revert f
    simp [callsTwice, isCalled, Script.Node.Nested, Script.NestedBetween, Script.Node.startLine,
      Script.Node.endLine]
  have hedge : ⟨"a.js:f:1", "b.js:g:1", 2⟩ ∈
      (buildFromFiles .preferSameFile [callsTwice, isCalled]).1.edges := by
    decide +kernel
  obtain ⟨_, _, _, _, hleast⟩ := buildFromFiles_exact .preferSameFile [callsTwice, isCalled]
  exact ⟨hplaced, hleast (by decide) (by decide) hplaced _ _ _ hedge⟩

end Graph

end CallAtlas
