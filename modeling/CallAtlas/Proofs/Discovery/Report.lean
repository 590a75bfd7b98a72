import Mathlib.Data.List.Perm.Basic
import CallAtlas.Proofs.Discovery.Walk
import CallAtlas.Proofs.Graph.Sorting

/-!
# What a walk reports

The folders on the trail of a walk have different paths, and so do the entries of one folder.
Hence no entry is met twice (`Traced.nodup_met`), the files reported have different paths, and
sorting them by path leaves nothing open (`Traced.pairwise_discover`). The numbers reported
count the entries met, and the folders that could not be listed.
-/

namespace CallAtlas.Scanner

open Script (Language)

/-- The entries that are met along a trail, by path, with what they turn out to be. -/
def met (s : Scanner) (trail : List Visit) : List (List String × Finding) :=
  trail.flatMap fun v => v.entries.map fun e => (v.names ++ [e.1], s.finding v e)

theorem mem_met {s : Scanner} {trail : List Visit} {names : List String} {f : Finding} :
    (names, f) ∈ s.met trail ↔
      ∃ v ∈ trail, ∃ e ∈ v.entries, v.names ++ [e.1] = names ∧ s.finding v e = f := by
  unfold met
  simp only [List.mem_flatMap, List.mem_map, Prod.mk.injEq]

/-- The files reported come by path. -/
theorem discover_sorted (s : Scanner) : s.discover.1.Pairwise fun a b => a.path ≤ b.path := by
  have hsorted : s.discover.1.Pairwise fun a b => (compareOn (·.path) a b).isLE = true :=
    pairwise_mergeSort_cmp _ _
  refine hsorted.imp ?_
  intro a b hle
  exact Std.LawfulBCmp.isLE_iff_le.mp hle

/-! ### Names -/

/-- Which files are reported, and with what. -/
theorem judge_eq_source {s : Scanner} {names : List String} {sight : Sight}
    {file : DiscoveredFile} :
    s.judge names sight = .source file ↔
      sight = .file file.size ∧ file.path = "/".intercalate names ∧
        s.ignores file.path false = false ∧ Language.ofPath? file.path = some file.language ∧
        file.group = Path.groupOf file.path s.groupDepth s.skipped := by
  cases sight with
  | passedOver => simp [judge]
  | unreadable => simp [judge]
  | folder place listing =>
      simp only [judge, reduceCtorEq, false_and, iff_false]
      split <;> simp
  | other =>
      simp only [judge, reduceCtorEq, false_and, iff_false]
      split <;> simp
  | file size =>
      obtain ⟨path, group, language, size'⟩ := file
      dsimp only [judge]
      constructor
      · intro h
        split at h
        · cases h
        · rename_i hopen
          split at h
          · cases h
          · rename_i hlanguage
            cases h
            exact ⟨rfl, rfl, by simpa using hopen, hlanguage, rfl⟩
      · rintro ⟨⟨⟩, rfl, hopen, hlanguage, rfl⟩
        rw [if_neg (by simpa using hopen), hlanguage]

theorem Way.isName {s : Scanner} (hs : s.tree.WellFormed) {seen : List (List String)} {v : Visit}
    (h : s.Way seen v) : ∀ name ∈ v.names, Path.IsName name := by
  induction h with
  | start => simp
  | step hu hv _ ih =>
      obtain ⟨e, he, hfinding⟩ := mem_children.mp hv
      rw [(finding_eq_folder hfinding).2.1]
      intro name hname
      rcases List.mem_append.mp hname with hname | hname
      · exact ih name hname
      · obtain rfl := List.mem_singleton.mp hname
        exact (hs _ _ ((hu.located hs).folder he)).isName e he

/-! ### Entries met once -/

/-- The numbers depend on what was met, in whatever order. -/
theorem Finding.stats_eq_of_perm {met met' : List Finding} (h : met.Perm met') :
    stats met = stats met' := by
  unfold stats
  rw [h.countP_eq, h.countP_eq, h.countP_eq]

/-- What is found on a trail: the entries that are met, and the folders that cannot be
listed. -/
theorem findings_perm (s : Scanner) (trail : List Visit) :
    (trail.flatMap s.findings).Perm
      ((s.met trail).map (·.2) ++
        .replicate (trail.countP (·.listing.isNone)) Finding.unreadable) := by
  induction trail with
  | nil => exact .refl _
  | cons v trail ih =>
      unfold met at ih ⊢
      rw [List.flatMap_cons, List.flatMap_cons, List.map_append, List.countP_cons]
      cases hlisting : v.listing with
      | none =>
          have hentries : v.entries = [] := by rw [Visit.entries, hlisting, Option.getD_none]
          simp only [findings, hlisting, hentries, List.map_nil, List.nil_append,
            List.singleton_append, Option.isNone_none, ↓reduceIte, List.replicate_succ]
          exact (ih.cons _).trans List.perm_middle.symm
      | some entries =>
          have hentries : v.entries = entries := by rw [Visit.entries, hlisting, Option.getD_some]
          simp only [findings, hlisting, hentries, List.map_map, Option.isNone_some,
            Bool.false_eq_true, ↓reduceIte, Nat.add_zero, List.append_assoc]
          exact ih.append_left _

/-- A folder that cannot be listed holds no file. -/
theorem filterMap_findings (s : Scanner) (trail : List Visit) :
    ((trail.flatMap s.findings).filterMap Finding.file?).Perm
      (((s.met trail).map (·.2)).filterMap Finding.file?) := by
  refine ((findings_perm s trail).filterMap _).trans (.of_eq ?_)
  rw [List.filterMap_append, List.filterMap_replicate_of_none rfl, List.append_nil]

theorem reverse_findings_perm (s : Scanner) (trail : List Visit) :
    (trail.flatMap fun v => (s.findings v).reverse).Perm (trail.flatMap s.findings) :=
  List.Perm.flatMap_left trail fun _ _ => List.reverse_perm _

namespace Traced

variable {s : Scanner} {steps : Nat} {trail : List Visit}

/-- The files reported are those found on the trail. -/
theorem discover_perm (h : s.Traced steps trail s.finished) :
    s.discover.1.Perm ((trail.flatMap s.findings).filterMap Finding.file?) := by
  refine (List.mergeSort_perm _ _).trans ((List.reverse_perm _).trans ?_)
  have hfiles : s.finished.files = _ := h.records.files_eq
  unfold finished at hfiles
  rw [hfiles]
  exact (reverse_findings_perm s trail).filterMap _

/-- The numbers reported are those of what is found on the trail. -/
theorem discover_stats (h : s.Traced steps trail s.finished) :
    s.discover.2 =
      { Finding.stats (trail.flatMap s.findings) with filesFound := s.discover.1.length } := by
  have hstats : s.finished.stats = _ := h.records.stats_eq
  rw [Finding.stats_eq_of_perm (reverse_findings_perm s trail)] at hstats
  rw [← hstats]
  rfl

variable {w : Walk} (hs : s.tree.WellFormed)

include hs

/-- No entry is met twice. -/
theorem nodup_met (h : s.Traced steps trail w) : ((s.met trail).map (·.1)).Nodup := by
  have hnames : trail.Pairwise fun v v' => v.names ≠ v'.names := by
    have hnodup := h.names_nodup
    rw [List.map_append, List.nodup_append] at hnodup
    exact List.pairwise_map.mp hnodup.2.1
  unfold Scanner.met
  rw [List.map_flatMap, List.nodup_flatMap]
  constructor
  · intro v hv
    have hlocated := h.located hs v (List.mem_append_right _ hv)
    rw [List.map_map]
    refine List.pairwise_map.mpr ((List.pairwise_map.mp (hlocated.nodup hs)).imp ?_)
    intro e e' hne heq
    exact hne (List.singleton_inj.mp (List.append_cancel_left heq))
  · refine hnames.imp fun {v v'} hne names hmem hmem' => hne ?_
    simp only [List.map_map, List.mem_map, Function.comp_apply] at hmem hmem'
    obtain ⟨e, _, rfl⟩ := hmem
    obtain ⟨e', _, heq⟩ := hmem'
    exact (List.append_inj_left' heq rfl).symm

/-- The names by which an entry is met can be read off its path. -/
theorem isName_of_mem_met (h : s.Traced steps trail w) {names : List String} {f : Finding}
    (hmem : (names, f) ∈ s.met trail) : ∀ name ∈ names, Path.IsName name := by
  obtain ⟨v, hv, e, he, rfl, _⟩ := mem_met.mp hmem
  obtain ⟨seen, hway, _⟩ := h.way v hv
  intro name hname
  rcases List.mem_append.mp hname with hname | hname
  · exact hway.isName hs name hname
  · obtain rfl := List.mem_singleton.mp hname
    exact (hs _ _ ((hway.located hs).folder he)).isName e he

/-- The files met have different paths. -/
theorem nodup_paths (h : s.Traced steps trail w) :
    ((((s.met trail).map (·.2)).filterMap Finding.file?).map (·.path)).Nodup := by
  have hnodup := List.pairwise_map.mp (h.nodup_met hs)
  rw [List.filterMap_map]
  refine List.pairwise_map.mpr (List.pairwise_filterMap.mpr (hnodup.imp_of_mem ?_))
  rintro ⟨names, f⟩ ⟨names', f'⟩ hmem hmem' hne file hfile file' hfile' heq
  have hpath : ∀ {names f file}, (names, f) ∈ s.met trail → f.file? = some file →
      file.path = "/".intercalate names := by
    intro names f file hmem hfile
    obtain ⟨v, _, e, _, rfl, rfl⟩ := mem_met.mp hmem
    cases hfinding : s.finding v e with
    | source found =>
        rw [hfinding] at hfile
        cases hfile
        exact (judge_eq_source.mp hfinding).2.1
    | _ =>
        rw [hfinding] at hfile
        cases hfile
  rw [hpath hmem hfile, hpath hmem' hfile'] at heq
  exact hne (Path.intercalate_inj
    (fun name hname => (h.isName_of_mem_met hs hmem name hname).isSegment)
    (fun name hname => (h.isName_of_mem_met hs hmem' name hname).isSegment) heq)

/-- No path comes twice. -/
theorem pairwise_discover (h : s.Traced steps trail s.finished) :
    s.discover.1.Pairwise fun a b => a.path < b.path := by
  have hnodup : (s.discover.1.map (·.path)).Nodup :=
    (((discover_perm h).trans (filterMap_findings s trail)).map _).nodup_iff.mpr (h.nodup_paths hs)
  refine (s.discover_sorted.and (List.pairwise_map.mp hnodup)).imp ?_
  rintro a b ⟨hle, hne⟩
  exact lt_of_le_of_ne hle hne

end Traced

end CallAtlas.Scanner
