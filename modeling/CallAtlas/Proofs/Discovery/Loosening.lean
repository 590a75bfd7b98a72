import Mathlib.Data.List.Sort
import CallAtlas.Proofs.Analysis
import CallAtlas.Proofs.Discovery.Exact
import CallAtlas.Proofs.Ignore.Strictness

/-!
# Settings that ignore less

Settings become looser where tests are taken, where the last extra pattern is one that ignores
and is dropped, and where an extra pattern is added that takes paths back in
(`ScanSettings.LoosensTo`). In the list of rules the first two take out a block of rules that
only ignore, and the last one appends a rule, so **no path is ignored that was not ignored
before**.

A file is reported if it is not ignored and no folder above it is, so with links passed over
every file that was reported still is. The reports are sorted by path, so one of them is what
the other one leaves out of nothing but further files (`Scanner.Loosens.discover_sublist`).
-/

namespace CallAtlas

/-! ### Policies -/

/-- The first settings become the second ones by a change that is to ignore less. -/
inductive ScanSettings.LoosensTo : ScanSettings → ScanSettings → Prop
  /-- Tests are taken that were left out. -/
  | takeTests (s : ScanSettings) (h : s.takesTests = false) :
      LoosensTo s { s with includeTests := some true }
  /-- The last pattern is one that ignores, and is dropped. -/
  | dropPattern (s : ScanSettings) {pattern : String} (h : ¬ IgnoreRule.Readmits pattern) :
      LoosensTo { s with extraIgnores := s.extraIgnores ++ [pattern] } s
  /-- A pattern is added that takes paths back in. -/
  | addReadmission (s : ScanSettings) {pattern : String} (h : IgnoreRule.Readmits pattern) :
      LoosensTo s { s with extraIgnores := s.extraIgnores ++ [pattern] }

/-- The rules in the ignore files of a project. -/
def projectRules (tree : FileTree) (folder : List String) (settings : ScanSettings) :
    List IgnoreRule :=
  (if settings.honoursGitignore then rulesOfFile tree folder gitignoreName else []) ++
    rulesOfFile tree folder ignoreFileName

namespace IgnorePolicy

variable {tree : FileTree} {folder : List String} {root : String}

/-- A policy has the standard rules, then those of the project, then those of the settings. -/
theorem make_eq_ok {settings : ScanSettings} {p : IgnorePolicy} :
    make tree folder root settings = .ok p ↔
      ∃ standard extra,
        rulesOf (ignoredFolders ++ ignoredFiles ++
          if settings.takesTests then [] else testPatterns) = .ok standard ∧
        rulesOf settings.extraIgnores = .ok extra ∧
        p = { root := String.ofList (dropDot root.toList),
              rules := standard ++ projectRules tree folder settings ++ extra } := by
  unfold make projectRules
  generalize rulesOf (ignoredFolders ++ ignoredFiles ++
    if settings.takesTests then [] else testPatterns) = standard
  generalize rulesOf settings.extraIgnores = extra
  cases standard with
  | error failure => simp [bind, Except.bind]
  | ok standard =>
      cases extra with
      | error failure => simp [bind, Except.bind]
      | ok extra =>
          constructor
          · intro h
            obtain rfl := Except.ok.inj h
            exact ⟨standard, extra, rfl, rfl, by rw [List.append_assoc standard]⟩
          · rintro ⟨_, _, hstandard, hextra, rfl⟩
            cases hstandard
            cases hextra
            rw [← List.append_assoc standard]
            rfl

/-- There is a policy where all extra patterns make sense. -/
theorem exists_make_iff {settings : ScanSettings} :
    (∃ p, make tree folder root settings = .ok p) ↔
      ∀ pattern ∈ settings.extraIgnores, IsPattern pattern := by
  constructor
  · rintro ⟨p, hp⟩
    obtain ⟨_, extra, _, hextra, _⟩ := make_eq_ok.mp hp
    rcases patterns_cases settings.extraIgnores with hall | ⟨_, _, _, _, heq, hbefore, hdefect⟩
    · exact hall
    · rw [heq, rulesOf_of_defect hbefore hdefect] at hextra
      cases hextra
  · intro hall
    obtain ⟨standard, hstandard⟩ := exists_standard_rules settings.takesTests
    obtain ⟨extra, hextra⟩ := exists_rulesOf hall
    exact ⟨_, make_eq_ok.mpr ⟨standard, extra, hstandard, hextra, rfl⟩⟩

/-- Looser settings make looser rules for the same root. -/
theorem stricter_of_loosensTo {strict loose : ScanSettings} (h : strict.LoosensTo loose)
    {p q : IgnorePolicy} (hp : make tree folder root strict = .ok p)
    (hq : make tree folder root loose = .ok q) : p.root = q.root ∧ Stricter p.rules q.rules := by
  obtain ⟨standard, extra, hstandard, hextra, rfl⟩ := make_eq_ok.mp hp
  obtain ⟨standard', extra', hstandard', hextra', rfl⟩ := make_eq_ok.mp hq
  refine ⟨rfl, ?_⟩
  cases h with
  | takeTests settings h =>
      rw [h, if_neg Bool.false_ne_true] at hstandard
      obtain ⟨always, tests, halways, htests, rfl⟩ := rulesOf_append.mp hstandard
      cases hextra.symm.trans hextra'
      have hsame : standard' = always := by
        change rulesOf (_ ++ []) = _ at hstandard'
        rw [List.append_nil, halways] at hstandard'
        exact (Except.ok.inj hstandard').symm
      subst hsame
      have hignoring := not_readmits_of_rulesOf htests (by decide +kernel)
      have hstricter :=
        stricter_insert hignoring standard' (projectRules tree folder strict ++ extra)
      simp only [← List.append_assoc] at hstricter
      exact hstricter
  | dropPattern settings hpattern =>
      cases hstandard.symm.trans hstandard'
      obtain ⟨_, added, hold, hadded, rfl⟩ := rulesOf_append.mp hextra
      cases hold.symm.trans hextra'
      have hignoring := not_readmits_of_rulesOf hadded (by simpa using hpattern)
      have hstricter :=
        stricter_insert hignoring (standard ++ projectRules tree folder loose ++ extra') []
      rw [List.append_nil, List.append_nil, List.append_assoc] at hstricter
      exact hstricter
  | addReadmission settings hpattern =>
      cases hstandard.symm.trans hstandard'
      obtain ⟨_, added, hold, hadded, rfl⟩ := rulesOf_append.mp hextra'
      cases hold.symm.trans hextra
      have hreadmitting := readmits_of_rulesOf hadded (by simpa using hpattern)
      rw [← List.append_assoc]
      exact stricter_append hreadmitting _

/-- What is ignored below a root under looser rules is ignored. -/
theorem ignores?_of_stricter {p q : IgnorePolicy} (hroot : p.root = q.root)
    (hrules : Stricter p.rules q.rules) (path : String) (isFolder : Bool) :
    ((q.ignores? path isFolder).isSome = (p.ignores? path isFolder).isSome) ∧
      (q.ignores? path isFolder = some true → p.ignores? path isFolder = some true) := by
  have hrelative : q.relative path.toList = p.relative path.toList := by
    unfold relative
    rw [hroot]
  unfold ignores?
  dsimp only
  rw [hrelative]
  split
  · exact ⟨rfl, id⟩
  · split
    · exact ⟨rfl, id⟩
    · refine ⟨rfl, fun h => ?_⟩
      rw [Option.some.injEq, beq_iff_eq] at h ⊢
      exact hrules.firstVerdict? h

end IgnorePolicy

/-! ### Discovery -/

namespace Scanner

/-- The second scanner ignores less, and is the same otherwise. -/
structure Loosens (s l : Scanner) : Prop where
  tree_eq : l.tree = s.tree
  folder_eq : l.folder = s.folder
  followsLinks_eq : l.followsLinks = s.followsLinks
  groupDepth_eq : l.groupDepth = s.groupDepth
  skipped_eq : l.skipped = s.skipped
  ignores : ∀ path isFolder, l.ignores path isFolder = true → s.ignores path isFolder = true

theorem Loosens.eligible {s l : Scanner} (h : s.Loosens l) {below : FileTree}
    {names : List String} {bytes : ByteArray} (heligible : s.Eligible below names bytes) :
    l.Eligible below names bytes := by
  have hkept : ∀ path isFolder, s.ignores path isFolder = false → l.ignores path isFolder = false :=
    fun path isFolder => by
      rw [← Bool.not_eq_true, ← Bool.not_eq_true]
      exact mt (h.ignores path isFolder)
  exact {
    file := heligible.file
    isOpen := fun above habove hne hne' => hkept _ _ (heligible.isOpen above habove hne hne')
    kept := hkept _ _ heligible.kept }

/-- Files that come by path are in the same order in every list. -/
theorem sublist_of_subset {fs gs : List DiscoveredFile}
    (hfs : fs.Pairwise fun a b => a.path < b.path) (hgs : gs.Pairwise fun a b => a.path < b.path)
    (h : fs ⊆ gs) : fs.Sublist gs := by
  have hnodup : fs.Nodup := by
    refine hfs.imp ?_
    rintro a _ hlt rfl
    exact lt_irrefl a.path hlt
  have : Std.Antisymm fun a b : DiscoveredFile => a.path < b.path :=
    ⟨fun a b hlt hgt => absurd (hlt.trans hgt) (lt_irrefl a.path)⟩
  exact List.sublist_of_subperm_of_pairwise (hnodup.subperm h) hfs hgs

/-- Where less is ignored, no file is lost. -/
theorem Loosens.discover_sublist {s l : Scanner} (h : s.Loosens l) (hs : s.tree.WellFormed)
    (hlinks : s.followsLinks = false) {entries : List (String × FileNode)}
    (hroot : s.tree.find s.folder = .ok (.folder entries)) :
    s.discover.1.Sublist l.discover.1 := by
  have hroot' : l.tree.find l.folder = .ok (.folder entries) := by
    rw [h.tree_eq, h.folder_eq]
    exact hroot
  have hstrict := reportsExactly hs (listing_rootVisit hroot) hlinks
  have hloose := reportsExactly (h.tree_eq ▸ hs) (listing_rootVisit hroot')
    (h.followsLinks_eq.trans hlinks)
  refine sublist_of_subset hstrict.sorted hloose.sorted fun file hfile => ?_
  obtain ⟨names, bytes, heligible, hpath, hlanguage, hsize, hgroup⟩ :=
    (hstrict.mem_iff file).mp hfile
  refine (hloose.mem_iff file).mpr ⟨names, bytes, h.eligible heligible, hpath, hlanguage, hsize, ?_⟩
  rw [hgroup, h.groupDepth_eq, h.skipped_eq]

/-- A scanner is made for a folder that is there, with the policy of its settings. -/
theorem make_eq_ok {tree : FileTree} {folder : List String} {root : String}
    {settings : ScanSettings} {s : Scanner} :
    make tree folder root settings = .ok s ↔
      ∃ entries policy, tree.find folder = .ok (.folder entries) ∧
        IgnorePolicy.make tree folder root settings = .ok policy ∧
        s = { tree, folder, root, policy, followsLinks := settings.followsLinks,
              groupDepth := settings.depth, skipped := settings.skipped } := by
  unfold make
  cases tree.find folder with
  | error cause => simp [throw, throwThe, MonadExceptOf.throw]
  | ok node =>
      cases node with
      | folder entries =>
          dsimp only
          cases IgnorePolicy.make tree folder root settings with
          | error failure => simp [bind, Except.bind]
          | ok policy => simp [bind, Except.bind, pure, Except.pure, eq_comm]
      | _ => simp [throw, throwThe, MonadExceptOf.throw]

/-- Looser settings make a scanner that ignores less. -/
theorem loosens_of_loosensTo {tree : FileTree} {folder : List String} {root : String}
    {strict loose : ScanSettings} (h : strict.LoosensTo loose) {s l : Scanner}
    (hs : make tree folder root strict = .ok s) (hl : make tree folder root loose = .ok l) :
    s.Loosens l := by
  obtain ⟨_, p, _, hp, rfl⟩ := make_eq_ok.mp hs
  obtain ⟨_, q, _, hq, rfl⟩ := make_eq_ok.mp hl
  obtain ⟨hroot, hrules⟩ := IgnorePolicy.stricter_of_loosensTo h hp hq
  refine ⟨rfl, rfl, ?_, ?_, ?_, ?_⟩
  · cases h <;> rfl
  · cases h <;> rfl
  · cases h <;> rfl
  · intro path isFolder hignored
    obtain ⟨_, hanswer⟩ := IgnorePolicy.ignores?_of_stricter hroot hrules path isFolder
    unfold ignores at hignored ⊢
    dsimp only at hignored ⊢
    cases hq : q.ignores? path isFolder with
    | none =>
        rw [hq] at hignored
        cases hignored
    | some ignored =>
        rw [hq] at hignored
        rw [hanswer (hq.trans (congrArg some hignored))]
        rfl

end Scanner

/-- **Ignoring is monotone in the settings.** Settings make a policy exactly where their extra
patterns make sense. Where tests are taken that were left out, or an extra pattern is dropped
that ignores, or one is added that takes paths back in:

* the policies answer about the same paths, and what the new one ignores the old one ignored;
* where links are passed over, the files found before are a sublist of those found now. -/
theorem ignoring_monotone (tree : FileTree) (folder : List String) (root : String) :
    (∀ settings, (∃ p, IgnorePolicy.make tree folder root settings = .ok p) ↔
      ∀ pattern ∈ settings.extraIgnores, IsPattern pattern) ∧
    ∀ strict loose : ScanSettings, strict.LoosensTo loose →
      (∀ p q, IgnorePolicy.make tree folder root strict = .ok p →
        IgnorePolicy.make tree folder root loose = .ok q → ∀ path isFolder,
          (q.ignores? path isFolder).isSome = (p.ignores? path isFolder).isSome ∧
          (q.ignores? path isFolder = some true → p.ignores? path isFolder = some true)) ∧
      (tree.WellFormed → strict.followsLinks = false →
        ∀ s l, Scanner.make tree folder root strict = .ok s →
          Scanner.make tree folder root loose = .ok l →
          s.discover.1.Sublist l.discover.1) := by
  refine ⟨fun settings => IgnorePolicy.exists_make_iff, fun strict loose h => ⟨?_, ?_⟩⟩
  · intro p q hp hq path isFolder
    obtain ⟨hroot, hrules⟩ := IgnorePolicy.stricter_of_loosensTo h hp hq
    exact IgnorePolicy.ignores?_of_stricter hroot hrules path isFolder
  · intro htree hlinks s l hs hl
    have hloosens := Scanner.loosens_of_loosensTo h hs hl
    obtain ⟨entries, p, hfind, _, rfl⟩ := Scanner.make_eq_ok.mp hs
    exact hloosens.discover_sublist htree hlinks hfind

namespace Scanner

/-- A test, and notes about it. -/
def withTests : FileTree :=
  (({} : FileTree).put "src/app.test.ts" (.file "g()".toUTF8)).put "src/notes.md" (.file .empty)

theorem wellFormed_withTests : withTests.WellFormed :=
  (FileNode.wellFormed_nil.put_leaf (by decide +kernel) rfl).put_leaf (by decide +kernel) rfl

/-- The scanner for these files. -/
def withTestsScanner (settings : ScanSettings) : Scanner where
  tree := withTests
  folder := []
  root := "/code"
  policy :=
    match IgnorePolicy.make withTests [] "/code" settings with
    | .ok policy => policy
    | .error _ => { root := "/code", rules := [] }
  followsLinks := settings.followsLinks
  groupDepth := settings.depth
  skipped := settings.skipped

theorem make_withTests {settings : ScanSettings} (h : settings.extraIgnores = []) :
    make withTests [] "/code" settings = .ok (withTestsScanner settings) := by
  have hpatterns : ∀ pattern ∈ settings.extraIgnores, IsPattern pattern := by simp [h]
  obtain ⟨policy, hpolicy⟩ : ∃ p, IgnorePolicy.make withTests [] "/code" settings = .ok p :=
    IgnorePolicy.exists_make_iff.mpr hpatterns
  refine make_eq_ok.mpr ⟨withTests.entries, policy, rfl, hpolicy, ?_⟩
  rw [withTestsScanner, hpolicy]

/-- The test is found once tests are taken. -/
theorem ignoring_monotone_withTests :
    ScanSettings.LoosensTo {} { includeTests := some true } ∧
    (withTestsScanner {}).discover.1.Sublist
      (withTestsScanner { includeTests := some true }).discover.1 ∧
    (withTestsScanner {}).discover.1 = [] ∧
    (withTestsScanner { includeTests := some true }).discover.1.map (·.path) =
      ["src/app.test.ts"] := by
  have hloosens : ScanSettings.LoosensTo {} { includeTests := some true } := .takeTests {} rfl
  obtain ⟨_, hless⟩ := ignoring_monotone withTests [] "/code"
  refine ⟨hloosens, ?_, by decide +kernel, by decide +kernel⟩
  exact (hless _ _ hloosens).2 wellFormed_withTests rfl _ _ (make_withTests rfl)
    (make_withTests rfl)

end Scanner

end CallAtlas
