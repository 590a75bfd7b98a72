import Mathlib
import CallAtlas.Proofs.Graph.Containment
import CallAtlas.Proofs.Snapshot.Rebuild

/-!
# The order of the files does not matter

With the order of the files, nearly everything inside a build changes: the positions of the
entities, the order of the links, and which of two equal links comes first and which is the
duplicate. Where paths are distinct and have no colon, **an id tells its file**. So the
entities that share an id come from one file, and the calls that one entity makes stand in
one file, and what is kept as the first of them is decided within that file, which does not
depend on the others.

What is left is counted. The counts of calls are a sum over the files
(`Graph.calls_build`), and those of edges depend on the number of edges and of links offered
only (`Graph.Counted`), not on which of them came first.
-/

namespace CallAtlas

open Script (ParsedFile CallSite)

/-! ### Catalogs with the same entities -/

/-- Two catalogs hold the same entities, whatever their positions. -/
structure Catalog.SameEntities (c c' : Catalog) : Prop where
  distinct : DistinctIds c.entities
  distinct' : DistinctIds c'.entities
  mem_iff : ∀ e, e ∈ c.entities ↔ e ∈ c'.entities

namespace Catalog

/-- The entities that a policy links for a call made in a given file. -/
def targetsOf (c : Catalog) (policy : ResolutionPolicy) (callee file : String) : List Entity :=
  (c.candidates policy callee file).filterMap c.get?

theorem mem_targetsOf {c : Catalog} {policy : ResolutionPolicy} {callee file : String} {e : Entity} :
    e ∈ c.targetsOf policy callee file ↔
      e ∈ c.entities ∧ e.name = callee ∧ c.Admits policy callee file e := by
  unfold targetsOf get?
  simp only [List.mem_filterMap, mem_candidates]
  constructor
  · rintro ⟨i, ⟨e', he', hname, hadmits⟩, he⟩
    cases he'.symm.trans he
    exact ⟨Array.mem_of_getElem? he, hname, hadmits⟩
  · rintro ⟨he, hname, hadmits⟩
    obtain ⟨i, hi⟩ := Array.mem_iff_getElem?.mp he
    exact ⟨i, ⟨e, hi, hname, hadmits⟩, hi⟩

theorem length_targetsOf (c : Catalog) (policy : ResolutionPolicy) (callee file : String) :
    (c.targetsOf policy callee file).length = (c.candidates policy callee file).length := by
  unfold targetsOf
  rw [List.length_filterMap_eq_countP, List.countP_eq_length]
  intro i hi
  obtain ⟨e, he, _⟩ := mem_candidates.mp hi
  simp [get?, he]

theorem nodup_candidates (c : Catalog) (policy : ResolutionPolicy) (callee file : String) :
    (c.candidates policy callee file).Nodup := by
  have hnamed : (c.named callee).Nodup := by
    rw [Catalog.named_eq_filter]
    exact List.nodup_range.filter _
  unfold candidates
  cases policy with
  | allMatches => exact hnamed
  | sameFileOnly => exact hnamed.filter _
  | preferSameFile =>
      dsimp only
      split
      · exact hnamed
      · exact hnamed.filter _

theorem nodup_targetsOf {c : Catalog} (hc : DistinctIds c.entities) (policy : ResolutionPolicy)
    (callee file : String) : (c.targetsOf policy callee file).Nodup := by
  refine List.Nodup.filterMap ?_ (c.nodup_candidates policy callee file)
  intro i j e hi hj
  have hi' : c.entities.toList[i]? = some e := by simpa [get?] using hi
  have hj' : c.entities.toList[j]? = some e := by simpa [get?] using hj
  exact (List.getElem?_inj (List.getElem?_eq_some_iff.mp hi').1 hc.of_map).mp (hi'.trans hj'.symm)

namespace SameEntities

variable {c c' : Catalog}

theorem admits_iff (h : c.SameEntities c') {policy : ResolutionPolicy} {callee file : String}
    {e : Entity} : c.Admits policy callee file e ↔ c'.Admits policy callee file e := by
  cases policy with
  | allMatches => rfl
  | sameFileOnly => rfl
  | preferSameFile => simp only [Admits, h.mem_iff]

theorem calls_iff (h : c.SameEntities c') {policy : ResolutionPolicy} {s t : String}
    {o : Occurrence} : o.Calls c policy s t ↔ o.Calls c' policy s t := by
  simp only [Occurrence.Calls, h.mem_iff, h.admits_iff]

/-- A call has as many targets in one catalog as in the other. -/
theorem length_candidates (h : c.SameEntities c') (policy : ResolutionPolicy)
    (callee file : String) :
    (c.candidates policy callee file).length = (c'.candidates policy callee file).length := by
  have hperm : (c.targetsOf policy callee file).Perm (c'.targetsOf policy callee file) := by
    rw [List.perm_ext_iff_of_nodup (nodup_targetsOf h.distinct _ _ _)
      (nodup_targetsOf h.distinct' _ _ _)]
    intro e
    rw [mem_targetsOf, mem_targetsOf, h.mem_iff, h.admits_iff]
  rw [← length_targetsOf, ← length_targetsOf, hperm.length_eq]

end SameEntities

end Catalog

/-! ### An id tells its file -/

/-- Files whose paths can be told apart where they stand in an id. -/
structure ClearPaths (files : List ParsedFile) : Prop where
  nodup : (files.map (·.path)).Nodup
  no_colon : ∀ f ∈ files, ':' ∉ f.path.toList

namespace ClearPaths

variable {files files' : List ParsedFile}

theorem perm (h : ClearPaths files) (hperm : files.Perm files') : ClearPaths files' :=
  ⟨(hperm.map _).nodup_iff.mp h.nodup, fun f hf => h.no_colon f (hperm.mem_iff.mpr hf)⟩

theorem file_eq_of_id_eq (h : ClearPaths files) {f f' : ParsedFile} (hf : f ∈ files)
    (hf' : f' ∈ files) {e e' : Entity} (he : e ∈ f.entities) (he' : e' ∈ f'.entities)
    (hid : e.id = e'.id) : f = f' := by
  obtain ⟨_, _, _, rfl⟩ := exists_make_of_mem_entities he
  obtain ⟨_, _, _, rfl⟩ := exists_make_of_mem_entities he'
  exact List.inj_on_of_nodup_map h.nodup hf hf'
    (Entity.path_eq_of_makeId_eq (h.no_colon f hf) (h.no_colon f' hf') hid)

/-- The catalog keeps, of every file, the first entity of each id. -/
theorem mem_ofFiles (h : ClearPaths files) {e : Entity} :
    e ∈ (Catalog.ofFiles files).entities ↔
      ∃ f ∈ files, f.entities.find? (·.id == e.id) = some e := by
  unfold Catalog.ofFiles
  rw [Catalog.mem_ofList, List.find?_flatMap]
  constructor
  · exact List.exists_of_findSome?_eq_some
  · rintro ⟨f, hf, hfind⟩
    -- The first file that has the id is the only one.
    have hsome : (files.findSome? fun f => f.entities.find? (·.id == e.id)).isSome :=
      List.findSome?_isSome_iff.mpr ⟨f, hf, by simp [hfind]⟩
    obtain ⟨e', he'⟩ := Option.isSome_iff_exists.mp hsome
    obtain ⟨f', hf', hfind'⟩ := List.exists_of_findSome?_eq_some he'
    have hid : e'.id = e.id := by simpa using List.find?_some hfind'
    obtain rfl : f' = f := h.file_eq_of_id_eq hf' hf (List.mem_of_find?_eq_some hfind')
      (List.mem_of_find?_eq_some hfind) hid
    rw [he', ← hfind', hfind]

/-- Whatever the order of the files, the same entities are kept. -/
theorem sameEntities (h : ClearPaths files) (hperm : files.Perm files') :
    (Catalog.ofFiles files).SameEntities (Catalog.ofFiles files') where
  distinct := Catalog.distinctIds_ofList _
  distinct' := Catalog.distinctIds_ofList _
  mem_iff e := by
    rw [h.mem_ofFiles, (h.perm hperm).mem_ofFiles]
    simp only [hperm.mem_iff]

/-! ### The same edges -/

/-- Every call is made again, in the same file at another position. -/
theorem exists_moved (h : ClearPaths files) (hperm : files.Perm files') {policy : ResolutionPolicy}
    {s t : String} {o : Occurrence} (ho : MakesCall policy files s t o) :
    ∃ i, MakesCall policy files' s t { o with index := i } := by
  obtain ⟨⟨hfile, hplace⟩, hcalls⟩ := ho
  obtain ⟨i, hi⟩ := List.mem_iff_getElem?.mp (hperm.mem_iff.mp (List.mem_of_getElem? hfile))
  exact ⟨i, ⟨hi, hplace⟩, (h.sameEntities hperm).calls_iff.mp hcalls⟩

theorem edges_subset (h : ClearPaths files) (hperm : files.Perm files')
    (policy : ResolutionPolicy) :
    (Graph.buildFromFiles policy files).1.edges ⊆ (Graph.buildFromFiles policy files').1.edges := by
  have h' := h.perm hperm
  rintro ⟨s, t, line⟩ hedge
  obtain ⟨o, ho, hline, hfirst⟩ := Graph.mem_edges_buildFromFiles.mp hedge
  obtain ⟨i, hmoved⟩ := h.exists_moved hperm ho
  refine Graph.mem_edges_buildFromFiles.mpr ⟨_, hmoved, hline, ?_⟩
  intro o' ho'
  obtain ⟨j, hback⟩ := h'.exists_moved hperm.symm ho'
  -- All calls of the pair stand in one file, in both lists, and there they come by place.
  obtain ⟨hindex, _⟩ := ho.file_eq h.nodup h.no_colon hback
  obtain ⟨hindex', _⟩ := hmoved.file_eq h'.nodup h'.no_colon ho'
  rcases hfirst _ hback with heq | hlt | ⟨_, hlt⟩
  · left
    cases o
    cases o'
    cases heq
    cases hindex'
    rfl
  · exact absurd hindex (Nat.ne_of_lt hlt)
  · exact .inr (.inr ⟨hindex', hlt⟩)

theorem edges_eq (h : ClearPaths files) (hperm : files.Perm files') (policy : ResolutionPolicy) :
    (Graph.buildFromFiles policy files).1.edges = (Graph.buildFromFiles policy files').1.edges := by
  refine (Graph.wellFormed_buildFromFiles policy files).edges_eq_of_mem_iff
    (Graph.wellFormed_buildFromFiles policy files') fun e => ⟨?_, ?_⟩
  · exact fun he => h.edges_subset hperm policy he
  · exact fun he => (h.perm hperm).edges_subset hperm.symm policy he

/-! ### The same entities -/

/-- An entity of one graph is an entity of the other, with the same degrees. -/
theorem entities_subset (h : ClearPaths files) (hperm : files.Perm files')
    (policy : ResolutionPolicy) {e : Entity}
    (he : e ∈ (Graph.buildFromFiles policy files).1.entities) :
    e ∈ (Graph.buildFromFiles policy files').1.entities := by
  have hg := Graph.wellFormed_buildFromFiles policy files
  have hg' := Graph.wellFormed_buildFromFiles policy files'
  have hmem : e.unlinked ∈ (Graph.buildFromFiles policy files').1.entities.map Entity.unlinked := by
    rw [Graph.unlinked_buildFromFiles, ← (h.sameEntities hperm).mem_iff,
      ← Graph.unlinked_buildFromFiles policy]
    exact Array.mem_map_of_mem he
  obtain ⟨e', he', hunlinked⟩ := Array.mem_map.mp hmem
  obtain ⟨i, hi, rfl⟩ := Graph.mem_entities.mp he
  obtain ⟨j, hj, rfl⟩ := Graph.mem_entities.mp he'
  have hid : ((Graph.buildFromFiles policy files').1.node j).id =
      ((Graph.buildFromFiles policy files).1.node i).id := by
    simpa [Entity.unlinked] using congrArg (·.id) hunlinked
  have hdegree : ∀ d, ((Graph.buildFromFiles policy files').1.node j).degree d =
      ((Graph.buildFromFiles policy files).1.node i).degree d := by
    intro d
    refine Nat.le_antisymm ?_ ?_
    · exact hg'.degree_le_of_edges_subset hg ((h.perm hperm).edges_subset hperm.symm policy) hj hi
        hid d
    · exact hg.degree_le_of_edges_subset hg' (h.edges_subset hperm policy) hi hj hid.symm d
  rw [← Entity.eq_of_unlinked hunlinked hdegree]
  exact he'

theorem entities_perm (h : ClearPaths files) (hperm : files.Perm files')
    (policy : ResolutionPolicy) :
    (Graph.buildFromFiles policy files).1.entities.toList.Perm
      (Graph.buildFromFiles policy files').1.entities.toList := by
  have hnodup := (Graph.wellFormed_buildFromFiles policy files).distinctIds.of_map
  have hnodup' := (Graph.wellFormed_buildFromFiles policy files').distinctIds.of_map
  rw [List.perm_ext_iff_of_nodup hnodup hnodup']
  intro e
  rw [Array.mem_toList_iff, Array.mem_toList_iff]
  exact ⟨h.entities_subset hperm policy, (h.perm hperm).entities_subset hperm.symm policy⟩

/-! ### The same counts -/

/-- A call site of one of the files has the same targets, by number. -/
theorem targetCount?_eq (h : ClearPaths files) (hperm : files.Perm files')
    (policy : ResolutionPolicy) {file : ParsedFile} (hfile : file ∈ files) {site : CallSite}
    (hsite : site ∈ file.callSites) :
    (Catalog.ofFiles files).targetCount? policy file site =
      (Catalog.ofFiles files').targetCount? policy file site := by
  have hcaller : (site.caller.bind (Catalog.ofFiles files).indexOf?).isNone =
      (site.caller.bind (Catalog.ofFiles files').indexOf?).isNone :=
    (Catalog.isUncontained_ofFiles hfile hsite).trans
      (Catalog.isUncontained_ofFiles (hperm.mem_iff.mp hfile) hsite).symm
  unfold Catalog.targetCount?
  rw [(h.sameEntities hperm).length_candidates]
  cases hat : site.caller.bind (Catalog.ofFiles files).indexOf? with
  | none =>
      rw [hat, Option.isNone_none, eq_comm, Option.isNone_iff_eq_none] at hcaller
      simp [hcaller]
  | some i =>
      rw [hat, Option.isNone_some, eq_comm, Option.isNone_eq_false_iff,
        Option.isSome_iff_exists] at hcaller
      obtain ⟨j, hj⟩ := hcaller
      simp [hj]

theorem calls_eq (h : ClearPaths files) (hperm : files.Perm files') (policy : ResolutionPolicy) :
    (Graph.buildFromFiles policy files).2.calls = (Graph.buildFromFiles policy files').2.calls := by
  have hfile : ∀ f ∈ files, (Catalog.ofFiles files).fileCounts policy f =
      (Catalog.ofFiles files').fileCounts policy f := by
    intro f hf
    unfold Catalog.fileCounts
    rw [List.map_congr_left fun site hsite => ?_]
    rw [Catalog.countsOf_eq, Catalog.countsOf_eq, h.targetCount?_eq hperm policy hf hsite]
  unfold Graph.buildFromFiles
  rw [Graph.calls_build, Graph.calls_build, List.map_congr_left hfile, (hperm.map _).sum_eq]

theorem offered_eq (h : ClearPaths files) (hperm : files.Perm files') (policy : ResolutionPolicy) :
    (Graph.buildFromFiles policy files).2.offered =
      (Graph.buildFromFiles policy files').2.offered := by
  have hfile : ∀ f ∈ files,
      (f.callSites.map fun site =>
        ((Catalog.ofFiles files).targetCount? policy f site).getD 0).sum =
      (f.callSites.map fun site =>
        ((Catalog.ofFiles files').targetCount? policy f site).getD 0).sum := by
    intro f hf
    rw [List.map_congr_left fun site hsite => ?_]
    rw [h.targetCount?_eq hperm policy hf hsite]
  unfold Graph.buildFromFiles
  rw [Graph.offered_build, Graph.offered_build, List.map_congr_left hfile, (hperm.map _).sum_eq]

theorem diagnostics_eq (h : ClearPaths files) (hperm : files.Perm files')
    (policy : ResolutionPolicy) :
    (Graph.buildFromFiles policy files).2 = (Graph.buildFromFiles policy files').2 := by
  refine Diagnostics.ext_calls (h.calls_eq hperm policy) ?_ (h.offered_eq hperm policy)
  rw [Graph.edgesInserted_buildFromFiles, Graph.edgesInserted_buildFromFiles, h.edges_eq hperm]

end ClearPaths

namespace Graph

/-- **The order of the files does not matter.** Where paths are distinct and have no colon,
every order of the files gives the same edges with the same lines, the same entities with the
same degrees, and the same counts. -/
theorem buildFromFiles_perm {files files' : List ParsedFile} (hperm : files.Perm files')
    (hpaths : (files.map (·.path)).Nodup) (hcolon : ∀ f ∈ files, ':' ∉ f.path.toList)
    (policy : ResolutionPolicy) :
    (buildFromFiles policy files).1.edges = (buildFromFiles policy files').1.edges ∧
      (buildFromFiles policy files).1.entities.toList.Perm
        (buildFromFiles policy files').1.entities.toList ∧
      (buildFromFiles policy files).2 = (buildFromFiles policy files').2 := by
  have h : ClearPaths files := ⟨hpaths, hcolon⟩
  exact ⟨h.edges_eq hperm policy, h.entities_perm hperm policy, h.diagnostics_eq hperm policy⟩

/-- Read after the function that it calls, the caller has another position, and everything
else stays: of the two calls the first is kept. -/
theorem buildFromFiles_perm_callsTwice :
    [callsTwice, isCalled].Perm [isCalled, callsTwice] ∧
      ([callsTwice, isCalled].map (·.path)).Nodup ∧
      (∀ f ∈ [callsTwice, isCalled], ':' ∉ f.path.toList) ∧
      (buildFromFiles .allMatches [isCalled, callsTwice]).1.indexOf? "a.js:f:1" = some 1 ∧
      (buildFromFiles .allMatches [isCalled, callsTwice]).1.edges = [⟨"a.js:f:1", "b.js:g:1", 2⟩] ∧
      (buildFromFiles .allMatches [isCalled, callsTwice]).2 =
        { totalCallSites := 2, resolved := 2, edgesInserted := 1, duplicateEdges := 1 } := by
  have hperm : [callsTwice, isCalled].Perm [isCalled, callsTwice] := List.Perm.swap _ _ _
  have hpaths : ([callsTwice, isCalled].map (·.path)).Nodup := by decide
  have hcolon : ∀ f ∈ [callsTwice, isCalled], ':' ∉ f.path.toList := by decide
  obtain ⟨hedges, _, hcounts⟩ := buildFromFiles_perm hperm hpaths hcolon .allMatches
  refine ⟨hperm, hpaths, hcolon, by decide +kernel, ?_, ?_⟩
  · rw [← hedges]
    decide +kernel
  · rw [← hcounts]
    decide +kernel

end Graph

end CallAtlas
