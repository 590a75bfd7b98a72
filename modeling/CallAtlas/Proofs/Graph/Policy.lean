import CallAtlas.Proofs.Graph.Diagnostics
import CallAtlas.Proofs.Snapshot.Rebuild

/-!
# Policies only narrow

A policy decides, for a call, which of the entities with the callee's name are linked. Those
in the caller's file are linked by every policy, and the policies differ in the others:
`sameFileOnly` admits none of them, `preferSameFile` admits them where the file has none of
its own, and `allMatches` always does.

**The line stays.** An edge has the line of the first call of its pair, so a wider policy
might find an earlier one. It does not: whether a policy admits an entity depends on the
entity and on the path of the calling file, and all calls from one entity are made under one
path (`MakesCall.path_eq`). So a policy that admits one call of a pair admits all of them
(`MakesCall.of_wider`), and both policies choose the first from the same calls.
-/

namespace CallAtlas

open Script (ParsedFile CallSite)

/-! ### What is admitted -/

namespace Catalog

variable {c : Catalog} {narrow wide : ResolutionPolicy}

/-- Every policy admits what is in the caller's file. -/
theorem admits_of_filePath_eq {policy : ResolutionPolicy} {callee file : String} {e : Entity}
    (h : e.filePath = file) : c.Admits policy callee file e := by
  cases policy with
  | allMatches => trivial
  | sameFileOnly => exact h
  | preferSameFile => exact .inl h

/-- One policy admits no more than another. -/
def Narrower (c : Catalog) (narrow wide : ResolutionPolicy) : Prop :=
  ∀ callee file e, c.Admits narrow callee file e → c.Admits wide callee file e

theorem narrower_sameFileOnly (c : Catalog) (policy : ResolutionPolicy) :
    c.Narrower .sameFileOnly policy :=
  fun _ _ _ h => admits_of_filePath_eq h

theorem narrower_allMatches (c : Catalog) (policy : ResolutionPolicy) :
    c.Narrower policy .allMatches :=
  fun _ _ _ _ => trivial

/-- Where the wider policy finds nothing, the narrower one does not either. -/
theorem Narrower.candidates_eq_nil (h : c.Narrower narrow wide) {callee file : String}
    (hnil : c.candidates wide callee file = []) : c.candidates narrow callee file = [] := by
  rw [List.eq_nil_iff_forall_not_mem] at hnil ⊢
  intro i hi
  obtain ⟨e, he, hname, hadmits⟩ := mem_candidates.mp hi
  exact hnil i (mem_candidates.mpr ⟨e, he, hname, h _ _ _ hadmits⟩)

/-- Preferring the caller's file loses no call: where the file has no candidate, all others
are one. -/
theorem candidates_allMatches_eq_nil {callee file : String}
    (hnil : c.candidates .preferSameFile callee file = []) :
    c.candidates .allMatches callee file = [] := by
  unfold candidates at hnil ⊢
  dsimp only at hnil ⊢
  split at hnil
  · exact hnil
  · rename_i hlocal
    exact absurd (List.isEmpty_iff.mpr hnil) hlocal

end Catalog

/-! ### The same calls -/

theorem Occurrence.Calls.mono {c : Catalog} {narrow wide : ResolutionPolicy}
    (h : c.Narrower narrow wide) {s t : String} {o : Occurrence} (ho : o.Calls c narrow s t) :
    o.Calls c wide s t := by
  obtain ⟨hkind, callee, receiver, identity, hcallee, hencl, hid, e, he, ht, hname, hadmits⟩ := ho
  exact ⟨hkind, callee, receiver, identity, hcallee, hencl, hid, e, he, ht, hname, h _ _ _ hadmits⟩

section Calls

variable {policy policy' : ResolutionPolicy} {files : List ParsedFile}
  (hcolon : ∀ f ∈ files, ':' ∉ f.path.toList)

include hcolon

/-- A policy that admits one call of a pair admits every call of it that another policy
admits. -/
theorem MakesCall.of_wider {s t : String} {o o' : Occurrence} (ho : MakesCall policy files s t o)
    (ho' : MakesCall policy' files s t o') : MakesCall policy files s t o' := by
  have hpath := ho.path_eq hcolon ho'
  obtain ⟨_, _, callee, _, _, _, _, _, e, he, ht, hname, hadmits⟩ := ho
  obtain ⟨hin, hkind, callee', receiver, identity, hcallee, hencl, hid, e', he', ht', hname', _⟩ :=
    ho'
  -- The entity called is the one with the id, so the callee's name is the same as well.
  obtain rfl : e = e' := (Catalog.distinctIds_ofList _).eq_of_id_eq he he' (ht.trans ht'.symm)
  subst hname
  subst hname'
  rw [hpath] at hadmits
  exact ⟨hin, hkind, _, receiver, identity, hcallee, hencl, hid, e, he, ht, rfl, hadmits⟩

/-- The caller of a call is declared in the file that makes it. -/
theorem MakesCall.filePath_eq {s t : String} {o : Occurrence} (ho : MakesCall policy files s t o)
    {a : Entity} (ha : a ∈ (Catalog.ofFiles files).entities) (hs : a.id = s) :
    a.filePath = o.file.path := by
  obtain ⟨f, hf, ha⟩ := Catalog.exists_mem_entities_of_mem_ofFiles ha
  obtain ⟨identity, _, _, rfl⟩ := exists_make_of_mem_entities ha
  obtain ⟨⟨hfile, _⟩, _, _, _, identity', _, _, hid, _⟩ := ho
  exact Entity.path_eq_of_makeId_eq (hcolon f hf) (hcolon _ (List.mem_of_getElem? hfile))
    (hs.trans hid.symm)

/-- A call within one file is made under every policy or under none. -/
theorem MakesCall.of_filePath_eq {a b : Entity} (ha : a ∈ (Catalog.ofFiles files).entities)
    (hb : b ∈ (Catalog.ofFiles files).entities) (hfile : a.filePath = b.filePath) {o : Occurrence}
    (ho : MakesCall policy files a.id b.id o) : MakesCall policy' files a.id b.id o := by
  have hpath := ho.filePath_eq hcolon ha rfl
  obtain ⟨hin, hkind, callee, receiver, identity, hcallee, hencl, hid, e, he, ht, hname, _⟩ := ho
  obtain rfl : b = e := (Catalog.distinctIds_ofList _).eq_of_id_eq hb he ht.symm
  exact ⟨hin, hkind, callee, receiver, identity, hcallee, hencl, hid, b, he, rfl, hname,
    Catalog.admits_of_filePath_eq (hfile.symm.trans hpath)⟩

end Calls

/-! ### Counts -/

/-- The counts of a policy against those of one that admits more. -/
structure Diagnostics.Narrows (d e : Diagnostics) : Prop where
  totalCallSites_eq : d.totalCallSites = e.totalCallSites
  uncontained_eq : d.uncontained = e.uncontained
  dynamic_eq : d.dynamic = e.dynamic
  resolved_le : d.resolved ≤ e.resolved
  le_unresolved : e.unresolved ≤ d.unresolved

namespace Diagnostics.Narrows

theorem refl (d : Diagnostics) : d.Narrows d := ⟨rfl, rfl, rfl, le_refl _, le_refl _⟩

theorem add {d d' e e' : Diagnostics} (h : d.Narrows e) (h' : d'.Narrows e') :
    (d + d').Narrows (e + e') where
  totalCallSites_eq := by simp [h.totalCallSites_eq, h'.totalCallSites_eq]
  uncontained_eq := by simp [h.uncontained_eq, h'.uncontained_eq]
  dynamic_eq := by simp [h.dynamic_eq, h'.dynamic_eq]
  resolved_le := by simpa using Nat.add_le_add h.resolved_le h'.resolved_le
  le_unresolved := by simpa using Nat.add_le_add h.le_unresolved h'.le_unresolved

theorem sum {β : Type} {f g : β → Diagnostics} (h : ∀ b, (f b).Narrows (g b)) (bs : List β) :
    (bs.map f).sum.Narrows (bs.map g).sum :=
  List.sum_hom_rel bs (refl 0) fun b _ _ hrest => (h b).add hrest

end Diagnostics.Narrows

namespace Catalog

variable {c : Catalog} {narrow wide : ResolutionPolicy}
  (h : ∀ callee file, c.candidates wide callee file = [] → c.candidates narrow callee file = [])

include h

theorem narrows_countsOf (file : ParsedFile) (site : CallSite) :
    (c.countsOf narrow file site).Narrows (c.countsOf wide file site) := by
  unfold countsOf
  cases site.caller.bind c.indexOf? with
  | none => exact .refl _
  | some caller =>
      dsimp only [resolve]
      rw [Diagnostics.record_ofCandidates, Diagnostics.record_ofCandidates]
      have hlength : (c.candidates wide site.callee file.path).length = 0 →
          (c.candidates narrow site.callee file.path).length = 0 := by
        simpa using h site.callee file.path
      refine ⟨rfl, rfl, rfl, ?_, ?_⟩
      · dsimp only [Diagnostics.ofTargets]
        omega
      · dsimp only [Diagnostics.ofTargets]
        omega

/-- What is resolved under the narrower policy is resolved under the wider one, and nothing
else is counted differently. -/
theorem narrows_build (files : List ParsedFile) :
    (Graph.build c narrow files).2.Narrows (Graph.build c wide files).2 := by
  have hcalls : (Graph.build c narrow files).2.calls.Narrows (Graph.build c wide files).2.calls := by
    rw [Graph.calls_build, Graph.calls_build]
    refine .sum (fun file => ?_) files
    exact (Diagnostics.Narrows.refl _).add (.sum (c.narrows_countsOf h file) file.callSites)
  exact ⟨hcalls.totalCallSites_eq, hcalls.uncontained_eq, hcalls.dynamic_eq, hcalls.resolved_le,
    hcalls.le_unresolved⟩

end Catalog

/-! ### Two policies on the same files -/

namespace Graph

/-- One policy only narrows what another one gives for some files. -/
structure Narrows (files : List ParsedFile) (narrow wide : ResolutionPolicy) : Prop where
  /-- The lines are the same as well. -/
  edges_subset : (buildFromFiles narrow files).1.edges ⊆ (buildFromFiles wide files).1.edges
  /-- In the same order, and the same in all but the degrees, which count the edges. -/
  entities_eq : (buildFromFiles narrow files).1.entities.map Entity.unlinked =
    (buildFromFiles wide files).1.entities.map Entity.unlinked
  degree_le : ∀ i < (buildFromFiles narrow files).1.entityCount, ∀ d,
    ((buildFromFiles narrow files).1.node i).degree d ≤
      ((buildFromFiles wide files).1.node i).degree d
  local_iff : ∀ a ∈ (buildFromFiles narrow files).1.entities,
    ∀ b ∈ (buildFromFiles narrow files).1.entities, a.filePath = b.filePath → ∀ line,
      ⟨a.id, b.id, line⟩ ∈ (buildFromFiles narrow files).1.edges ↔
        ⟨a.id, b.id, line⟩ ∈ (buildFromFiles wide files).1.edges
  counts : (buildFromFiles narrow files).2.Narrows (buildFromFiles wide files).2

theorem unlinked_mem_ofFiles {policy : ResolutionPolicy} {files : List ParsedFile} {e : Entity}
    (he : e ∈ (buildFromFiles policy files).1.entities) :
    e.unlinked ∈ (Catalog.ofFiles files).entities := by
  rw [← unlinked_buildFromFiles policy]
  exact Array.mem_map_of_mem he

theorem unlinked_buildFromFiles_eq (policy policy' : ResolutionPolicy) (files : List ParsedFile) :
    (buildFromFiles policy files).1.entities.map Entity.unlinked =
      (buildFromFiles policy' files).1.entities.map Entity.unlinked := by
  rw [unlinked_buildFromFiles, unlinked_buildFromFiles]

theorem edges_subset_of_narrower {files : List ParsedFile}
    (hcolon : ∀ f ∈ files, ':' ∉ f.path.toList) {narrow wide : ResolutionPolicy}
    (h : (Catalog.ofFiles files).Narrower narrow wide) :
    (buildFromFiles narrow files).1.edges ⊆ (buildFromFiles wide files).1.edges := by
  rintro ⟨s, t, line⟩ hedge
  obtain ⟨o, ho, hline, hfirst⟩ := mem_edges_buildFromFiles.mp hedge
  refine mem_edges_buildFromFiles.mpr ⟨o, ⟨ho.1, ho.2.mono h⟩, hline, ?_⟩
  -- A call that comes first under the narrower policy comes first under the wider one.
  intro o' ho'
  exact hfirst o' (ho.of_wider hcolon ho')

theorem narrows_of_narrower {files : List ParsedFile} (hcolon : ∀ f ∈ files, ':' ∉ f.path.toList)
    {narrow wide : ResolutionPolicy} (h : (Catalog.ofFiles files).Narrower narrow wide) :
    Narrows files narrow wide where
  edges_subset := edges_subset_of_narrower hcolon h
  entities_eq := unlinked_buildFromFiles_eq narrow wide files
  degree_le := by
    intro i hi d
    have hentities := unlinked_buildFromFiles_eq narrow wide files
    have hcount : (buildFromFiles narrow files).1.entityCount =
        (buildFromFiles wide files).1.entityCount := by
      simpa [entityCount] using congrArg Array.size hentities
    have hid : ((buildFromFiles narrow files).1.node i).id =
        ((buildFromFiles wide files).1.node i).id := by
      simpa [Entity.unlinked] using congrArg (·.id) (unlinked_node_congr hentities i)
    exact (wellFormed_buildFromFiles narrow files).degree_le_of_edges_subset
      (wellFormed_buildFromFiles wide files) (edges_subset_of_narrower hcolon h) hi (hcount ▸ hi)
      hid d
  local_iff := by
    intro a ha b hb hfile line
    have ha' := unlinked_mem_ofFiles ha
    have hb' := unlinked_mem_ofFiles hb
    have hcall : ∀ o, MakesCall narrow files a.id b.id o ↔ MakesCall wide files a.id b.id o :=
      fun o => ⟨.of_filePath_eq hcolon ha' hb' hfile, .of_filePath_eq hcolon ha' hb' hfile⟩
    simp only [mem_edges_buildFromFiles, hcall]
  counts := Catalog.narrows_build (fun _ _ => h.candidates_eq_nil) files

/-- **Policies only narrow.** For all files whose paths have no colon, `sameFileOnly` gives
less than `preferSameFile`, and that less than `allMatches`: some edges may be missing, but
none that lies within one file, and no edge has another line. The entities and the numbers of
call sites are the same. Preferring the caller's file resolves as many calls as linking all
matches. -/
theorem buildFromFiles_narrows {files : List ParsedFile}
    (hcolon : ∀ f ∈ files, ':' ∉ f.path.toList) :
    Narrows files .sameFileOnly .preferSameFile ∧ Narrows files .preferSameFile .allMatches ∧
      (buildFromFiles .preferSameFile files).2.resolved =
        (buildFromFiles .allMatches files).2.resolved ∧
      (buildFromFiles .preferSameFile files).2.unresolved =
        (buildFromFiles .allMatches files).2.unresolved := by
  have hprefer := narrows_of_narrower hcolon
    ((Catalog.ofFiles files).narrower_allMatches .preferSameFile)
  have hall : (buildFromFiles .allMatches files).2.Narrows (buildFromFiles .preferSameFile files).2 :=
    Catalog.narrows_build (fun _ _ => Catalog.candidates_allMatches_eq_nil) files
  refine ⟨narrows_of_narrower hcolon (Catalog.narrower_sameFileOnly _ _), hprefer, ?_, ?_⟩
  · exact Nat.le_antisymm hprefer.counts.resolved_le hall.resolved_le
  · exact Nat.le_antisymm hall.le_unresolved hprefer.counts.le_unresolved

/-- The two calls of `g` go to another file, so only `sameFileOnly` leaves them
unresolved. -/
theorem buildFromFiles_narrows_callsTwice :
    (∀ f ∈ [callsTwice, isCalled], ':' ∉ f.path.toList) ∧
      (buildFromFiles .sameFileOnly [callsTwice, isCalled]).2.resolved = 0 ∧
      (buildFromFiles .preferSameFile [callsTwice, isCalled]).2.resolved = 2 ∧
      (buildFromFiles .allMatches [callsTwice, isCalled]).2.resolved = 2 ∧
      ⟨"a.js:f:1", "b.js:g:1", 2⟩ ∈ (buildFromFiles .allMatches [callsTwice, isCalled]).1.edges := by
  have hcolon : ∀ f ∈ [callsTwice, isCalled], ':' ∉ f.path.toList := by decide
  have hresolved : (buildFromFiles .preferSameFile [callsTwice, isCalled]).2.resolved = 2 := by
    decide +kernel
  have hedge : ⟨"a.js:f:1", "b.js:g:1", 2⟩ ∈
      (buildFromFiles .preferSameFile [callsTwice, isCalled]).1.edges := by
    decide +kernel
  obtain ⟨_, hprefer, hequal, _⟩ := buildFromFiles_narrows hcolon
  exact ⟨hcolon, by decide +kernel, hresolved, hequal ▸ hresolved, hprefer.edges_subset hedge⟩

end Graph

end CallAtlas
