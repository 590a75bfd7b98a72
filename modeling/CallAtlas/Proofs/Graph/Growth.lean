import CallAtlas.Proofs.Graph.Policy

/-!
# More files never take anything away

A file that is read after others adds entities behind theirs and calls after theirs. Its
entities may share names with the old ones, so old calls can gain targets, and it may even
share ids, so that its calls count as those of an old entity. Three things could go wrong and
none does.

**Positions stay.** A catalog is filled from the front, so the old one is where the new one
starts (`Catalog.Extends`).

**No target is lost.** Only `preferSameFile` could lose one, where a file that had no entity
of the callee's name gets one. But a new entity stands under a new path, and what a policy
admits for an old file depends on the entities under that file's own path
(`Catalog.Extends.admits_iff`).

**No line changes.** Between two old entities no call is new but those of the new files
(`MakesCall.of_extended`), and they come last.
-/

namespace CallAtlas

open Script (ParsedFile CallSite)

/-! ### The catalog goes on -/

section FirstByKey

variable {α κ : Type} [DecidableEq κ]

theorem isPrefix_pushNew (key : α → κ) (kept : List α) (a : α) : kept <+: pushNew key kept a := by
  rcases pushNew_cases key kept a with ⟨_, _, _, h⟩ | ⟨_, h⟩
  · rw [h]
  · rw [h]
    exact List.prefix_append kept [a]

theorem isPrefix_foldl_pushNew (key : α → κ) (as kept : List α) :
    kept <+: as.foldl (pushNew key) kept := by
  induction as generalizing kept with
  | nil => exact List.prefix_refl kept
  | cons a as ih => exact (isPrefix_pushNew key kept a).trans (ih (pushNew key kept a))

end FirstByKey

namespace Catalog

/-- One catalog goes on where another one ended, and adds no entity under one of these
paths. -/
structure Extends (c c' : Catalog) (paths : List String) : Prop where
  isPrefix : c.entities.toList <+: c'.entities.toList
  distinct : DistinctIds c'.entities
  mem_of_filePath : ∀ e ∈ c'.entities, e.filePath ∈ paths → e ∈ c.entities

theorem extends_ofFiles {files more : List ParsedFile}
    (hpaths : ∀ f ∈ files, ∀ f' ∈ more, f'.path ≠ f.path) :
    (ofFiles files).Extends (ofFiles (files ++ more)) (files.map (·.path)) where
  isPrefix := by
    unfold ofFiles
    rw [toList_ofList, toList_ofList, List.flatMap_append]
    unfold firstByKey
    rw [List.foldl_append]
    exact isPrefix_foldl_pushNew _ _ _
  distinct := distinctIds_ofList _
  mem_of_filePath := by
    intro e he hpath
    obtain ⟨f, hf, hfile⟩ := List.mem_map.mp hpath
    -- The entity was found in an old file, and is still the first one with its id.
    unfold ofFiles at he ⊢
    rw [mem_ofList, List.flatMap_append, List.find?_append] at he
    rw [mem_ofList]
    rcases Option.or_eq_some_iff.mp he with hold | ⟨_, hnew⟩
    · exact hold
    · obtain ⟨f', hf', he'⟩ := List.mem_flatMap.mp (List.mem_of_find?_eq_some hnew)
      obtain ⟨_, _, _, rfl⟩ := exists_make_of_mem_entities he'
      exact absurd hfile.symm (hpaths f hf f' hf')

namespace Extends

variable {c c' : Catalog} {paths : List String}

theorem getElem? (h : c.Extends c' paths) {i : Nat} {e : Entity} (hi : c.entities[i]? = some e) :
    c'.entities[i]? = some e := by
  rw [← Array.getElem?_toList] at hi ⊢
  obtain ⟨hlt, rfl⟩ := List.getElem?_eq_some_iff.mp hi
  exact List.prefix_iff_getElem?.mp h.isPrefix i hlt

theorem mem (h : c.Extends c' paths) {e : Entity} (he : e ∈ c.entities) : e ∈ c'.entities := by
  rw [← Array.mem_toList_iff] at he ⊢
  exact h.isPrefix.subset he

/-- What a policy admits for a call in an old file does not change. -/
theorem admits_iff (h : c.Extends c' paths) {policy : ResolutionPolicy} {callee file : String}
    (hfile : file ∈ paths) {e : Entity} :
    c.Admits policy callee file e ↔ c'.Admits policy callee file e := by
  cases policy with
  | allMatches => rfl
  | sameFileOnly => rfl
  | preferSameFile =>
      unfold Admits
      refine or_congr_right ⟨fun hnone e' he' hname heq => ?_, fun hnone e' he' => ?_⟩
      · exact hnone e' (h.mem_of_filePath e' he' (heq ▸ hfile)) hname heq
      · exact hnone e' (h.mem he')

/-- A call that had a target in an old file has one still. -/
theorem candidates_ne_nil (h : c.Extends c' paths) {policy : ResolutionPolicy}
    {callee file : String} (hfile : file ∈ paths) (hne : c.candidates policy callee file ≠ []) :
    c'.candidates policy callee file ≠ [] := by
  obtain ⟨i, hi⟩ := List.exists_mem_of_ne_nil _ hne
  obtain ⟨e, he, hname, hadmits⟩ := mem_candidates.mp hi
  exact List.ne_nil_of_mem
    (mem_candidates.mpr ⟨e, h.getElem? he, hname, (h.admits_iff hfile).mp hadmits⟩)

/-- A call in an old file that joined two entities does so still. -/
theorem calls (h : c.Extends c' paths) {policy : ResolutionPolicy} {s t : String} {o : Occurrence}
    (hfile : o.file.path ∈ paths) (ho : o.Calls c policy s t) : o.Calls c' policy s t := by
  obtain ⟨hkind, callee, receiver, identity, hcallee, hencl, hid, e, he, ht, hname, hadmits⟩ := ho
  exact ⟨hkind, callee, receiver, identity, hcallee, hencl, hid, e, h.mem he, ht, hname,
    (h.admits_iff hfile).mp hadmits⟩

/-- A call in an old file that joins two entities did so before, if the one called is
old. -/
theorem calls_of_mem (h : c.Extends c' paths) {policy : ResolutionPolicy} {s : String} {e : Entity}
    (he : e ∈ c.entities) {o : Occurrence} (hfile : o.file.path ∈ paths)
    (ho : o.Calls c' policy s e.id) : o.Calls c policy s e.id := by
  obtain ⟨hkind, callee, receiver, identity, hcallee, hencl, hid, e', he', ht, hname, hadmits⟩ := ho
  obtain rfl : e' = e := h.distinct.eq_of_id_eq he' (h.mem he) ht
  exact ⟨hkind, callee, receiver, identity, hcallee, hencl, hid, e', he, rfl, hname,
    (h.admits_iff hfile).mpr hadmits⟩

end Extends

end Catalog

/-! ### The calls of more files -/

theorem Occurrence.In.path_mem {files : List ParsedFile} {o : Occurrence} (ho : o.In files) :
    o.file.path ∈ files.map (·.path) :=
  List.mem_map_of_mem (List.mem_of_getElem? ho.1)

theorem Occurrence.In.index_lt {files : List ParsedFile} {o : Occurrence} (ho : o.In files) :
    o.index < files.length :=
  (List.getElem?_eq_some_iff.mp ho.1).1

theorem Occurrence.in_append_iff {files more : List ParsedFile} {o : Occurrence}
    (h : o.index < files.length) : o.In (files ++ more) ↔ o.In files := by
  unfold Occurrence.In
  rw [List.getElem?_append_left h]

section Extended

variable {policy : ResolutionPolicy} {files more : List ParsedFile}
  (hpaths : ∀ f ∈ files, ∀ f' ∈ more, f'.path ≠ f.path)

include hpaths

theorem MakesCall.extended {s t : String} {o : Occurrence} (ho : MakesCall policy files s t o) :
    MakesCall policy (files ++ more) s t o :=
  ⟨(Occurrence.in_append_iff ho.1.index_lt).mpr ho.1,
    (Catalog.extends_ofFiles hpaths).calls ho.1.path_mem ho.2⟩

/-- A call of an old entity that is made in an old file was made before. -/
theorem MakesCall.of_extended {s : String} {e : Entity} (he : e ∈ (Catalog.ofFiles files).entities)
    {o : Occurrence} (hlt : o.index < files.length)
    (ho : MakesCall policy (files ++ more) s e.id o) :
    MakesCall policy files s e.id o := by
  have hin := (Occurrence.in_append_iff hlt).mp ho.1
  exact ⟨hin, (Catalog.extends_ofFiles hpaths).calls_of_mem he hin.path_mem ho.2⟩

/-- What a call site of an old file adds to the calls that are resolved. -/
theorem Catalog.resolved_countsOf_le {file : ParsedFile} (hfile : file ∈ files) (site : CallSite) :
    ((ofFiles files).countsOf policy file site).resolved ≤
      ((ofFiles (files ++ more)).countsOf policy file site).resolved := by
  have hext := extends_ofFiles hpaths
  rw [countsOf_eq, countsOf_eq]
  unfold targetCount?
  cases hcaller : site.caller.bind (ofFiles files).indexOf? with
  | none => exact Nat.zero_le _
  | some i =>
      -- The caller is found where it was.
      obtain ⟨id, hid, hi⟩ := Option.bind_eq_some_iff.mp hcaller
      obtain ⟨e, he, heid⟩ := (indexOf?_eq_some (distinctIds_ofList _)).mp hi
      have hi' : (ofFiles (files ++ more)).indexOf? id = some i :=
        (indexOf?_eq_some hext.distinct).mpr ⟨e, hext.getElem? he, heid⟩
      have hne : (ofFiles files).candidates policy site.callee file.path ≠ [] →
          (ofFiles (files ++ more)).candidates policy site.callee file.path ≠ [] :=
        hext.candidates_ne_nil (List.mem_map_of_mem hfile)
      rw [← List.length_pos_iff, ← List.length_pos_iff] at hne
      rw [hid, Option.bind_some, hi']
      simp only [Option.map_some, Option.elim_some, Diagnostics.ofTargets]
      omega

end Extended

/-! ### The graph of more files -/

theorem Diagnostics.resolved_sum (ds : List Diagnostics) :
    ds.sum.resolved = (ds.map (·.resolved)).sum := by
  induction ds with
  | nil => rfl
  | cons d ds ih => rw [List.sum_cons, add_resolved, ih, List.map_cons, List.sum_cons]

namespace Graph

/-- Nothing that one build gives is missing in another one. -/
structure KeptBy (old new : Graph × Diagnostics) : Prop where
  /-- In the same order, and the same in all but the degrees, which count the edges. -/
  entities_isPrefix : old.1.entities.toList.map Entity.unlinked <+:
    new.1.entities.toList.map Entity.unlinked
  /-- The lines are the same as well. -/
  edges_subset : old.1.edges ⊆ new.1.edges
  degree_le : ∀ i < old.1.entityCount, ∀ d, (old.1.node i).degree d ≤ (new.1.node i).degree d
  edgesInserted_le : old.2.edgesInserted ≤ new.2.edgesInserted
  resolved_le : old.2.resolved ≤ new.2.resolved

section Extended

variable {files more : List ParsedFile} (hpaths : ∀ f ∈ files, ∀ f' ∈ more, f'.path ≠ f.path)
  (policy : ResolutionPolicy)

include hpaths

theorem unlinked_isPrefix_append :
    (buildFromFiles policy files).1.entities.toList.map Entity.unlinked <+:
      (buildFromFiles policy (files ++ more)).1.entities.toList.map Entity.unlinked := by
  rw [← Array.toList_map, ← Array.toList_map, unlinked_buildFromFiles, unlinked_buildFromFiles]
  exact (Catalog.extends_ofFiles hpaths).isPrefix

theorem edges_subset_append :
    (buildFromFiles policy files).1.edges ⊆ (buildFromFiles policy (files ++ more)).1.edges := by
  rintro ⟨s, t, line⟩ hedge
  obtain ⟨o, ho, hline, hfirst⟩ := mem_edges_buildFromFiles.mp hedge
  have hcalls := ho.2
  obtain ⟨_, _, _, _, _, _, _, e, he, rfl, _⟩ := hcalls
  refine mem_edges_buildFromFiles.mpr ⟨o, ho.extended hpaths, hline, ?_⟩
  intro o' ho'
  -- A call in a new file comes after those in the old ones.
  by_cases hlt : o'.index < files.length
  · exact hfirst o' (ho'.of_extended hpaths he hlt)
  · exact .inr (.inl (Nat.lt_of_lt_of_le ho.1.index_lt (Nat.le_of_not_lt hlt)))

theorem degree_le_append {i : Nat} (hi : i < (buildFromFiles policy files).1.entityCount)
    (d : Direction) :
    ((buildFromFiles policy files).1.node i).degree d ≤
      ((buildFromFiles policy (files ++ more)).1.node i).degree d := by
  have hold : ((buildFromFiles policy files).1.entities.toList.map Entity.unlinked)[i]? =
      some ((buildFromFiles policy files).1.node i).unlinked := by
    rw [List.getElem?_map, Array.getElem?_toList, getElem?_entities hi, Option.map_some]
  obtain ⟨hlt, hget⟩ := List.getElem?_eq_some_iff.mp hold
  have hnew := List.prefix_iff_getElem?.mp (unlinked_isPrefix_append hpaths policy) i hlt
  rw [hget, List.getElem?_map, Array.getElem?_toList] at hnew
  -- The entity at the position is the same, degrees aside.
  obtain ⟨e, he, heq⟩ := Option.map_eq_some_iff.mp hnew
  obtain ⟨hi', hnode⟩ := node_of_getElem? he
  have hid : ((buildFromFiles policy files).1.node i).id =
      ((buildFromFiles policy (files ++ more)).1.node i).id := by
    rw [hnode]
    exact (congrArg Entity.id heq).symm
  exact (wellFormed_buildFromFiles policy files).degree_le_of_edges_subset
    (wellFormed_buildFromFiles policy _) (edges_subset_append hpaths policy) hi hi' hid d

theorem resolved_le_append :
    (buildFromFiles policy files).2.resolved ≤
      (buildFromFiles policy (files ++ more)).2.resolved := by
  have hcalls : ∀ fs, (buildFromFiles policy fs).2.resolved =
      ((fs.map ((Catalog.ofFiles fs).fileCounts policy)).map (·.resolved)).sum := by
    intro fs
    rw [← Diagnostics.resolved_sum]
    exact congrArg (·.resolved) (calls_build (.ofFiles fs) policy fs)
  have hfile : ∀ f ∈ files, ((Catalog.ofFiles files).fileCounts policy f).resolved ≤
      ((Catalog.ofFiles (files ++ more)).fileCounts policy f).resolved := by
    intro f hf
    unfold Catalog.fileCounts
    rw [Diagnostics.add_resolved, Diagnostics.add_resolved, Diagnostics.resolved_sum,
      Diagnostics.resolved_sum, List.map_map, List.map_map]
    exact Nat.add_le_add_left
      (List.sum_le_sum fun site _ => Catalog.resolved_countsOf_le hpaths hf site) _
  rw [hcalls, hcalls, List.map_append, List.map_append, List.sum_append, List.map_map, List.map_map]
  exact (List.sum_le_sum hfile).trans (Nat.le_add_right _ _)

end Extended

/-- **More files never take anything away.** For all files, all further files under other
paths and every policy: the entities that were there come first and in the same order, every
edge is kept with its line, no degree becomes smaller, and no fewer edges are inserted or
calls resolved. -/
theorem buildFromFiles_append {files more : List ParsedFile}
    (hpaths : ∀ f ∈ files, ∀ f' ∈ more, f'.path ≠ f.path) (policy : ResolutionPolicy) :
    KeptBy (buildFromFiles policy files) (buildFromFiles policy (files ++ more)) where
  entities_isPrefix := unlinked_isPrefix_append hpaths policy
  edges_subset := edges_subset_append hpaths policy
  degree_le := fun _ hi d => degree_le_append hpaths policy hi d
  edgesInserted_le := by
    rw [edgesInserted_buildFromFiles, edgesInserted_buildFromFiles]
    exact ((wellFormed_buildFromFiles policy files).nodup_edges.of_map.subperm
      (edges_subset_append hpaths policy)).length_le
  resolved_le := resolved_le_append hpaths policy

/-- A second function `g`, under another path, is called as well, and the edge to the first
one keeps its line. -/
theorem buildFromFiles_append_callsTwice :
    (∀ f ∈ [callsTwice, isCalled], ∀ f' ∈ [{ isCalled with path := "c.js" }], f'.path ≠ f.path) ∧
      (buildFromFiles .preferSameFile
        ([callsTwice, isCalled] ++ [{ isCalled with path := "c.js" }])).2.edgesInserted = 2 ∧
      ⟨"a.js:f:1", "b.js:g:1", 2⟩ ∈ (buildFromFiles .preferSameFile
        ([callsTwice, isCalled] ++ [{ isCalled with path := "c.js" }])).1.edges := by
  have hpaths : ∀ f ∈ [callsTwice, isCalled],
      ∀ f' ∈ [{ isCalled with path := "c.js" }], f'.path ≠ f.path := by
    decide
  have hedge : ⟨"a.js:f:1", "b.js:g:1", 2⟩ ∈
      (buildFromFiles .preferSameFile [callsTwice, isCalled]).1.edges := by
    decide +kernel
  exact ⟨hpaths, by decide +kernel,
    (buildFromFiles_append hpaths .preferSameFile).edges_subset hedge⟩

end Graph

end CallAtlas
