import CallAtlas.Analysis
import CallAtlas.Proofs.Discovery.Report
import CallAtlas.Proofs.Graph.Construction

/-!
# What an analysis accounts for

An analysis goes through the results for the discovered files and keeps several books on the
way: an arena of entities, the files that were read, a record of each, and the failures. After
any number of results the books agree (`Intake.Collects`), and the arena is the one that the
files alone would give. So the graph is the graph of the files that could be read, and a file
that could not changes neither it nor its diagnostics (`process_without_failing`).

The events frame the work: one when the scan starts, one for each file in whatever order the
files are done, and one after each pass, with the numbers that the analysis reports. An analysis
that is refused sends none (`perform_accounts`).
-/

namespace CallAtlas

open Script (ParsedFile)

/-! ### Which files can be read -/

/-- What a text that is accepted is parsed to. -/
theorem Script.ParsedFile.ofText_eq_ok {strict : Bool} {path group : String}
    {language : Script.Language} {text : String} {parsed : ParsedFile}
    (h : ofText strict path group language text = .ok parsed) :
    parsed =
      { path, group, language, source := text, tree := Script.read language text,
        contentHash := ContentHash.ofText text } := by
  unfold ofText at h
  dsimp only at h
  split at h
  · cases h
  · exact (Except.ok.inj h).symm

/-- A file that is parsed could be read, and its text was accepted. -/
theorem DiscoveredFile.parse_eq_ok {file : DiscoveredFile} {tree : FileTree}
    {names : List String} {shown : String} {limit : Nat} {strict : Bool} {parsed : ParsedFile}
    (h : file.parse tree names shown limit strict = .ok parsed) :
    ∃ bytes, tree.read names = .ok bytes ∧
      ParsedFile.ofText strict file.path file.group file.language (Text.decodeLossy bytes) =
        .ok parsed := by
  unfold parse at h
  split at h
  · cases h
  · split at h
    · cases h
    · rename_i bytes hread
      exact ⟨bytes, hread, h⟩

namespace Scanner

variable (s : Scanner) (settings : ScanSettings)

/-- Can a file be read? -/
def parses (file : DiscoveredFile) : Bool := (s.parse settings file).isOk

/-- The files that can be read. -/
def parsed (files : List DiscoveredFile) : List ParsedFile :=
  files.filterMap fun file => (s.parse settings file).toOption

/-- The failure of a file that cannot be read. -/
def failure? (file : DiscoveredFile) : Option FileFailure :=
  match s.parse settings file with
  | .ok _ => none
  | .error cause => some { path := file.path, cause }

/-- The failures of the files that cannot be read. -/
def failed (files : List DiscoveredFile) : List FileFailure :=
  files.filterMap (s.failure? settings)

variable {s settings}

/-- A file that is read keeps its path. -/
theorem path_of_parse {file : DiscoveredFile} {p : ParsedFile}
    (h : s.parse settings file = .ok p) : p.path = file.path := by
  obtain ⟨_, _, htext⟩ := DiscoveredFile.parse_eq_ok h
  rw [ParsedFile.ofText_eq_ok htext]

theorem parsed_cons_ok {file : DiscoveredFile} {p : ParsedFile} (files : List DiscoveredFile)
    (h : s.parse settings file = .ok p) :
    s.parsed settings (file :: files) = p :: s.parsed settings files ∧
      s.failed settings (file :: files) = s.failed settings files ∧
      s.parses settings file = true := by
  simp [parsed, failed, failure?, parses, h, Except.toOption, Except.isOk, Except.toBool]

theorem parsed_cons_error {file : DiscoveredFile} {cause : ReadFailure}
    (files : List DiscoveredFile) (h : s.parse settings file = .error cause) :
    s.parsed settings (file :: files) = s.parsed settings files ∧
      s.failed settings (file :: files) =
        { path := file.path, cause } :: s.failed settings files ∧
      s.parses settings file = false := by
  simp [parsed, failed, failure?, parses, h, Except.toOption, Except.isOk, Except.toBool]

variable (s settings)

/-- Every file is read or fails, and keeps its place. -/
theorem map_path_parsed (files : List DiscoveredFile) :
    (s.parsed settings files).map (·.path) =
        (files.filter (s.parses settings)).map (·.path) ∧
      (s.failed settings files).map (·.path) =
        (files.filter fun file => !s.parses settings file).map (·.path) := by
  induction files with
  | nil => exact ⟨rfl, rfl⟩
  | cons file files ih =>
      cases h : s.parse settings file with
      | ok p =>
          obtain ⟨hparsed, hfailed, hparses⟩ := parsed_cons_ok files h
          simp [hparsed, hfailed, hparses, path_of_parse h, ih.1, ih.2]
      | error cause =>
          obtain ⟨hparsed, hfailed, hparses⟩ := parsed_cons_error files h
          simp [hparsed, hfailed, hparses, ih.1, ih.2]

theorem length_parsed_add_failed (files : List DiscoveredFile) :
    (s.parsed settings files).length + (s.failed settings files).length = files.length := by
  have hparsed := congrArg List.length (s.map_path_parsed settings files).1
  have hfailed := congrArg List.length (s.map_path_parsed settings files).2
  simp only [List.length_map] at hparsed hfailed
  rw [hparsed, hfailed]
  exact (List.length_eq_length_filter_add _).symm

/-- Leaving out the files that fail leaves out the failures, and nothing else. -/
theorem parsed_filter (files : List DiscoveredFile) :
    s.parsed settings (files.filter (s.parses settings)) = s.parsed settings files ∧
      s.failed settings (files.filter (s.parses settings)) = [] := by
  induction files with
  | nil => exact ⟨rfl, rfl⟩
  | cons file files ih =>
      cases h : s.parse settings file with
      | ok p =>
          rw [List.filter_cons_of_pos (parsed_cons_ok files h).2.2, (parsed_cons_ok _ h).1,
            (parsed_cons_ok _ h).2.1, (parsed_cons_ok files h).1, ih.1, ih.2]
          exact ⟨rfl, rfl⟩
      | error cause =>
          rw [List.filter_cons_of_neg (by simp [(parsed_cons_error files h).2.2]), ih.1, ih.2,
            (parsed_cons_error files h).1]
          exact ⟨rfl, rfl⟩

end Scanner

/-! ### Collecting the results -/

/-- An entity is kept or counted as dropped. -/
theorem Arena.size_add_duplicates (es : List Entity) :
    (ofList es).size + (ofList es).duplicates = es.length := by
  have hinsert : ∀ (a : Arena) (e : Entity),
      (a.insert e).size + (a.insert e).duplicates = a.size + a.duplicates + 1 := by
    intro a e
    unfold insert size
    split
    · rfl
    · simp only [Array.size_push]
      omega
  have hfoldl : ∀ (es : List Entity) (a : Arena),
      (a.insertAll es).size + (a.insertAll es).duplicates = a.size + a.duplicates + es.length := by
    intro es
    induction es with
    | nil => exact fun _ => rfl
    | cons e es ih =>
        intro a
        have hrest := ih (a.insert e)
        rw [hinsert] at hrest
        rw [List.length_cons]
        exact hrest.trans (by omega)
  have hall := hfoldl es empty
  have hempty : empty.size + empty.duplicates = 0 := rfl
  rwa [hempty, Nat.zero_add] at hall

theorem Graph.entityCount_buildFromFiles (policy : ResolutionPolicy) (files : List ParsedFile) :
    (buildFromFiles policy files).1.entityCount = (Catalog.ofFiles files).size := by
  have hsize := congrArg Array.size (unlinked_buildFromFiles policy files)
  rwa [Array.size_map] at hsize

namespace Intake

/-- The books agree on which files were read and which failed. -/
structure Collects (i : Intake) (parsed : List ParsedFile) (failures : List FileFailure) :
    Prop where
  parsed_eq : i.parsed.toList = parsed
  arena_eq : i.arena = .ofList (parsed.flatMap (·.entities))
  records_eq : i.records.toList = parsed.map .ofParsed
  failures_eq : i.failures.toList = failures

variable {i : Intake} {parsed : List ParsedFile} {failures : List FileFailure}

theorem collects_nil : Collects {} [] [] := ⟨rfl, rfl, rfl, rfl⟩

theorem Collects.add_ok (h : i.Collects parsed failures) (file : DiscoveredFile) (p : ParsedFile) :
    (i.add (file, .ok p)).Collects (parsed ++ [p]) failures where
  parsed_eq := by simp [add, h.parsed_eq]
  arena_eq := by
    simp [add, h.arena_eq, Arena.ofList, Arena.insertAll, List.flatMap_append, List.foldl_append]
  records_eq := by simp [add, h.records_eq]
  failures_eq := h.failures_eq

theorem Collects.add_error (h : i.Collects parsed failures) (file : DiscoveredFile)
    (cause : ReadFailure) :
    (i.add (file, .error cause)).Collects parsed (failures ++ [{ path := file.path, cause }]) where
  parsed_eq := h.parsed_eq
  arena_eq := h.arena_eq
  records_eq := h.records_eq
  failures_eq := by simp [add, h.failures_eq]

/-- The books agree after any number of results. -/
theorem Collects.foldl (s : Scanner) (settings : ScanSettings) (files : List DiscoveredFile)
    (h : i.Collects parsed failures) :
    ((files.zip (files.map (s.parse settings))).foldl add i).Collects
      (parsed ++ s.parsed settings files) (failures ++ s.failed settings files) := by
  induction files generalizing i parsed failures with
  | nil =>
      rw [Scanner.parsed, Scanner.failed, List.filterMap_nil, List.filterMap_nil, List.append_nil,
        List.append_nil]
      exact h
  | cons file files ih =>
      rw [List.map_cons, List.zip_cons_cons, List.foldl_cons]
      cases hparse : s.parse settings file with
      | ok p =>
          obtain ⟨hparsed, hfailed, _⟩ := Scanner.parsed_cons_ok files hparse
          rw [hparsed, hfailed, ← List.singleton_append, ← List.append_assoc]
          exact ih (h.add_ok file p)
      | error cause =>
          obtain ⟨hparsed, hfailed, _⟩ := Scanner.parsed_cons_error files hparse
          rw [hparsed, hfailed, ← List.singleton_append, ← List.append_assoc failures]
          exact ih (h.add_error file cause)

theorem collects_ofResults (s : Scanner) (settings : ScanSettings) (files : List DiscoveredFile) :
    (ofResults files (files.map (s.parse settings))).Collects (s.parsed settings files)
      (s.failed settings files) :=
  collects_nil.foldl s settings files

end Intake

/-! ### Sending events -/

namespace Reporting

variable {α β : Type}

theorem exec_pure (a : α) (sent : Array Event) : (pure a : Reporting α).exec sent = (.ok a, sent) :=
  rfl

theorem exec_bind_ok {x : Reporting α} {a : α} {sent sent' : Array Event}
    (h : x.exec sent = (.ok a, sent')) (next : α → Reporting β) :
    (x >>= next).exec sent = (next a).exec sent' := by
  unfold exec at h ⊢
  rw [ExceptT.run_bind, StateT.run_bind, h]
  rfl

theorem exec_send (e : Event) (sent : Array Event) :
    (send e).exec sent = (.ok (), sent.push e) :=
  rfl

theorem exec_forM_send (outcomes : List ParseOutcome) (sent : Array Event) :
    (outcomes.forM fun outcome => send outcome.event).exec sent =
      (.ok (), sent ++ outcomes.map ParseOutcome.event) := by
  induction outcomes generalizing sent with
  | nil => simp [List.forM, exec_pure]
  | cons o outcomes ih =>
      rw [List.forM, exec_bind_ok (exec_send o.event sent), ih, List.map_cons]
      simp

end Reporting

/-! ### Reading and building -/

namespace Analysis

open Reporting

/-- What an analysis says about the files that were discovered. -/
structure Accounts (s : Scanner) (settings : ScanSettings) (policy : ResolutionPolicy)
    (discovered : List DiscoveredFile) (a : Analysis) : Prop where
  files_eq : a.files = (s.parsed settings discovered).map .ofParsed
  failures_eq : a.failures = s.failed settings discovered
  /-- The files read and the files that failed are all files, each kind in the order of the
  files. -/
  files_paths : a.files.map (·.path) = (discovered.filter (s.parses settings)).map (·.path)
  failures_paths : a.failures.map (·.path) =
    (discovered.filter fun file => !s.parses settings file).map (·.path)
  filesParsed_eq : a.stats.filesParsed = a.files.length
  filesFailed_eq : a.stats.filesFailed = a.failures.length
  files_total : a.stats.filesParsed + a.stats.filesFailed = discovered.length
  entities_total : (a.files.map (·.entityCount)).sum =
    a.stats.entityCount + a.stats.duplicateEntities
  graph_eq : (a.graph, a.diagnostics) =
    Graph.buildFromFiles policy (s.parsed settings discovered)
  entityCount_eq : a.stats.entityCount = a.graph.entityCount
  edgeCount_eq : a.stats.edgeCount = a.graph.edgeCount

/-- The events after the start of the scan. -/
def Told (s : Scanner) (settings : ScanSettings) (discovered : List DiscoveredFile)
    (a : Analysis) (events : List Event) : Prop :=
  ∃ reports : List Event,
    reports.Perm (discovered.map fun file => ParseOutcome.event (file, s.parse settings file)) ∧
      events = reports ++
        [.scanComplete discovered.length a.stats.filesParsed a.stats.filesFailed
            a.stats.entityCount,
          .graphBuilt a.stats.entityCount a.stats.edgeCount a.diagnostics.unresolved]

end Analysis

namespace Intake.Collects

theorem freeze_eq {i : Intake} {parsed : List ParsedFile} {failures : List FileFailure}
    (h : i.Collects parsed failures) : i.arena.freeze = .ofFiles parsed := by
  rw [h.arena_eq]
  rfl

theorem arena_size {i : Intake} {parsed : List ParsedFile} {failures : List FileFailure}
    (h : i.Collects parsed failures) (policy : ResolutionPolicy) (root : String)
    (scan : ScanStats) :
    i.arena.size = (i.analysis root policy scan).stats.entityCount := by
  have hcount := Graph.entityCount_buildFromFiles policy parsed
  unfold Graph.buildFromFiles at hcount
  rw [← h.freeze_eq, ← h.parsed_eq] at hcount
  exact hcount.symm

/-- Books that agree make an analysis that adds up. -/
theorem accounts {i : Intake} {s : Scanner} {settings : ScanSettings}
    {discovered : List DiscoveredFile} {policy : ResolutionPolicy}
    (h : i.Collects (s.parsed settings discovered) (s.failed settings discovered)) (root : String)
    (scan : ScanStats) :
    Analysis.Accounts s settings policy discovered (i.analysis root policy scan) := by
  obtain ⟨hpaths, hpaths'⟩ := s.map_path_parsed settings discovered
  have hparsed : i.parsed.size = (s.parsed settings discovered).length := by
    rw [← h.parsed_eq, Array.length_toList]
  have hfailed : i.failures.size = (s.failed settings discovered).length := by
    rw [← h.failures_eq, Array.length_toList]
  refine ⟨h.records_eq, h.failures_eq, ?_, ?_, ?_, ?_, ?_, ?_, ?_, rfl, rfl⟩
  · rw [← hpaths]
    simp [Intake.analysis, h.records_eq, FileRecord.ofParsed, Function.comp_def]
  · rw [← hpaths']
    simp [Intake.analysis, h.failures_eq]
  · simp [Intake.analysis, h.records_eq, hparsed]
  · simp [Intake.analysis]
  · rw [← s.length_parsed_add_failed settings discovered, ← hparsed, ← hfailed]
    rfl
  · have hall := Arena.size_add_duplicates ((s.parsed settings discovered).flatMap (·.entities))
    rw [← h.arena_size policy root scan]
    change _ = i.arena.size + i.arena.duplicates
    rw [h.arena_eq, hall]
    simp [Intake.analysis, h.records_eq, FileRecord.ofParsed, Function.comp_def,
      List.length_flatMap]
  · unfold Graph.buildFromFiles
    rw [← h.freeze_eq, ← h.parsed_eq]
    rfl

end Intake.Collects

namespace Analysis

open Reporting

section

variable (s : Scanner) (settings : ScanSettings) (policy : ResolutionPolicy) (schedule : Schedule)

theorem exec_parseAll (files : List DiscoveredFile) (sent : Array Event) :
    (parseAll s settings schedule files).exec sent =
      (.ok (files.map (s.parse settings)),
        sent ++ (schedule.order (files.zip (files.map (s.parse settings)))).map
          ParseOutcome.event) := by
  unfold parseAll
  rw [exec_bind_ok (exec_forM_send _ sent), exec_pure]

theorem map_event_order (files : List DiscoveredFile) :
    ((schedule.order (files.zip (files.map (s.parse settings)))).map ParseOutcome.event).Perm
      (files.map fun file => ParseOutcome.event (file, s.parse settings file)) := by
  refine ((schedule.perm _).map _).trans (.of_eq ?_)
  rw [← List.map_prod_left_eq_zip, List.map_map]
  rfl

/-- Whatever the files hold, they are read and their graph is built. -/
theorem exec_process (discovered : List DiscoveredFile) (scan : ScanStats) (sent : Array Event) :
    ∃ (a : Analysis) (events : List Event),
      (process s settings policy schedule discovered scan).exec sent = (.ok a, sent ++ events) ∧
      a.root = s.root ∧ a.stats.scan = scan ∧ Accounts s settings policy discovered a ∧
      Told s settings discovered a events := by
  have hcollects := Intake.collects_ofResults s settings discovered
  unfold process
  rw [exec_bind_ok (exec_parseAll s settings schedule discovered sent)]
  dsimp only
  generalize Intake.ofResults discovered (discovered.map (s.parse settings)) = intake at hcollects
  rw [exec_bind_ok (exec_send _ _), exec_bind_ok (exec_send _ _), exec_pure]
  refine ⟨intake.analysis s.root policy scan,
    (schedule.order (discovered.zip (discovered.map (s.parse settings)))).map
      ParseOutcome.event ++ [_, _], Prod.ext rfl ?_, rfl, rfl, hcollects.accounts s.root scan,
    _, map_event_order s settings schedule discovered, rfl⟩
  rw [hcollects.arena_size policy s.root scan]
  exact Array.toList_inj.mp (by simp [Intake.analysis])

/-- **A file that fails leaves no trace** in the graph: without such files there are no
failures, and the graph, its diagnostics and the records are the same. -/
theorem process_without_failing {discovered : List DiscoveredFile} {a : Analysis}
    (h : Accounts s settings policy discovered a) (scan : ScanStats) (sent : Array Event) :
    ∃ (a' : Analysis) (sent' : Array Event),
      (process s settings policy schedule (discovered.filter (s.parses settings)) scan).exec sent =
        (.ok a', sent') ∧
      a'.graph = a.graph ∧ a'.diagnostics = a.diagnostics ∧ a'.files = a.files ∧
      a'.failures = [] := by
  obtain ⟨a', events, hexec, _, _, h', _⟩ :=
    exec_process s settings policy schedule (discovered.filter (s.parses settings)) scan sent
  obtain ⟨hparsed, hfailed⟩ := s.parsed_filter settings discovered
  have hgraph : (a'.graph, a'.diagnostics) = (a.graph, a.diagnostics) := by
    rw [h'.graph_eq, h.graph_eq, hparsed]
  refine ⟨a', _, hexec, congrArg Prod.fst hgraph, congrArg Prod.snd hgraph, ?_, ?_⟩
  · rw [h'.files_eq, h.files_eq, hparsed]
  · rw [h'.failures_eq, hfailed]

end

end Analysis

/-! ### When an analysis is refused -/

/-- The pattern makes sense. -/
def IsPattern (pattern : String) : Prop := ∃ rule?, IgnoreRule.ofLine pattern = .ok rule?

theorem exists_rulesOf {patterns : List String} (h : ∀ p ∈ patterns, IsPattern p) :
    ∃ rules, rulesOf patterns = .ok rules := by
  induction patterns with
  | nil => exact ⟨[], rfl⟩
  | cons pattern patterns ih =>
      obtain ⟨rule?, hrule⟩ := h pattern List.mem_cons_self
      obtain ⟨rules, hrules⟩ := ih fun p hp => h p (List.mem_cons_of_mem _ hp)
      refine ⟨rule?.toList ++ rules, ?_⟩
      rw [rulesOf, hrule]
      dsimp only
      rw [hrules]

/-- The first pattern that makes no sense is reported. -/
theorem rulesOf_of_defect {before after : List String} {pattern : String}
    {defect : IgnoreRule.Defect} (hbefore : ∀ p ∈ before, IsPattern p)
    (h : IgnoreRule.ofLine pattern = .error defect) :
    rulesOf (before ++ pattern :: after) =
      .error (.invalidIgnorePattern pattern defect.message) := by
  induction before with
  | nil => rw [List.nil_append, rulesOf, h]
  | cons p before ih =>
      obtain ⟨rule?, hrule⟩ := hbefore p List.mem_cons_self
      rw [List.cons_append, rulesOf, hrule]
      dsimp only
      rw [ih fun q hq => hbefore q (List.mem_cons_of_mem _ hq)]

theorem patterns_cases (patterns : List String) :
    (∀ p ∈ patterns, IsPattern p) ∨
      ∃ before pattern after defect, patterns = before ++ pattern :: after ∧
        (∀ p ∈ before, IsPattern p) ∧ IgnoreRule.ofLine pattern = .error defect := by
  induction patterns with
  | nil => exact .inl (by simp)
  | cons pattern patterns ih =>
      cases hpattern : IgnoreRule.ofLine pattern with
      | error defect => exact .inr ⟨[], pattern, patterns, defect, rfl, by simp, hpattern⟩
      | ok rule? =>
          rcases ih with hall | ⟨before, p, after, defect, rfl, hbefore, hp⟩
          · exact .inl (List.forall_mem_cons.mpr ⟨⟨rule?, hpattern⟩, hall⟩)
          · refine .inr ⟨pattern :: before, p, after, defect, rfl, ?_, hp⟩
            exact List.forall_mem_cons.mpr ⟨⟨rule?, hpattern⟩, hbefore⟩

/-- The patterns that are always there make sense. -/
theorem exists_standard_rules (takesTests : Bool) :
    ∃ rules, rulesOf (ignoredFolders ++ ignoredFiles ++ if takesTests then [] else testPatterns) =
      .ok rules := by
  have hok : (rulesOf (ignoredFolders ++ ignoredFiles ++
      if takesTests then [] else testPatterns)).isOk = true := by
    cases takesTests <;> decide +kernel
  cases hrules : rulesOf (ignoredFolders ++ ignoredFiles ++
      if takesTests then [] else testPatterns) with
  | ok rules => exact ⟨rules, rfl⟩
  | error cause =>
      rw [hrules] at hok
      cases hok

section

variable (tree : FileTree) (folder : List String) (root : String)

/-- Only the patterns of the settings decide whether there is a policy. -/
theorem IgnorePolicy.make_eq (settings : ScanSettings) :
    ∃ rules : List IgnoreRule, make tree folder root settings =
      (rulesOf settings.extraIgnores).map fun extra =>
        { root := String.ofList (dropDot root.toList), rules := rules ++ extra } := by
  obtain ⟨standard, hstandard⟩ := exists_standard_rules settings.takesTests
  refine ⟨standard ++
    (if settings.honoursGitignore then rulesOfFile tree folder gitignoreName else []) ++
    rulesOfFile tree folder ignoreFileName, ?_⟩
  unfold make
  rw [hstandard]
  cases rulesOf settings.extraIgnores <;> rfl

/-- Why the files of a folder cannot be discovered. -/
inductive Scanner.Refuses (settings : ScanSettings) : ScanFailure → Prop
  | rootMissing {cause : AccessFailure} (h : tree.find folder = .error cause) :
      Refuses settings (.rootUnreadable root cause.message)
  | rootNoFolder {node : FileNode} (h : tree.find folder = .ok node)
      (hnode : node.isFolder = false) :
      Refuses settings (.rootUnreadable root "not a directory")
  | rootClosed (h : tree.find folder = .ok .closed) :
      Refuses settings (.rootUnreadable root AccessFailure.denied.message)
  | badPattern {entries : List (String × FileNode)} {before after : List String}
      {pattern : String} {defect : IgnoreRule.Defect} (h : tree.find folder = .ok (.folder entries))
      (hextra : settings.extraIgnores = before ++ pattern :: after)
      (hbefore : ∀ p ∈ before, IsPattern p)
      (hpattern : IgnoreRule.ofLine pattern = .error defect) :
      Refuses settings (.invalidIgnorePattern pattern defect.message)

theorem Scanner.make_eq_error_iff (settings : ScanSettings) (cause : ScanFailure) :
    make tree folder root settings = .error cause ↔
      Refuses tree folder root settings cause := by
  obtain ⟨rules, hpolicy⟩ := IgnorePolicy.make_eq tree folder root settings
  unfold make
  constructor
  · intro h
    cases hfind : tree.find folder with
    | error absent =>
        rw [hfind] at h
        cases h
        exact .rootMissing hfind
    | ok node =>
        rw [hfind] at h
        cases node with
        | closed =>
            cases h
            exact .rootClosed hfind
        | folder entries =>
            dsimp only at h
            rcases patterns_cases settings.extraIgnores with
              hall | ⟨before, pattern, after, defect, hextra, hbefore, hpattern⟩
            · obtain ⟨extra, hextra⟩ := exists_rulesOf hall
              rw [hpolicy, hextra] at h
              cases h
            · rw [hpolicy, hextra, rulesOf_of_defect hbefore hpattern] at h
              cases h
              exact .badPattern hfind hextra hbefore hpattern
        | _ =>
            cases h
            exact .rootNoFolder hfind rfl
  · intro h
    cases h with
    | rootMissing hfind =>
        rw [hfind]
        rfl
    | rootNoFolder hfind hnode =>
        rename_i node
        rw [hfind]
        cases node with
        | folder entries => cases hnode
        | closed => cases hnode
        | _ => rfl
    | rootClosed hfind =>
        rw [hfind]
        rfl
    | badPattern hfind hextra hbefore hpattern =>
        rw [hfind]
        dsimp only
        rw [hpolicy, hextra, rulesOf_of_defect hbefore hpattern]
        rfl

/-- Why a folder cannot be analysed. -/
inductive Analysis.Refuses (settings : Settings) : AnalysisFailure → Prop
  | settings {cause : SettingsFailure} (h : settings.validate = .error cause) :
      Refuses settings (.settings cause)
  | scan {cause : ScanFailure} (hvalid : settings.validate = .ok ())
      (h : Scanner.Refuses tree folder root settings.scan cause) :
      Refuses settings (.scan cause)

end

/-! ### Whole analyses -/

namespace Analysis

open Reporting

/-- An analysis of the files that a scanner discovers, and the events sent meanwhile. -/
structure Complete (s : Scanner) (settings : Settings) (a : Analysis) (events : List Event) :
    Prop where
  root_eq : a.root = s.root
  sorted : s.discover.1.Pairwise fun f g => f.path ≤ g.path
  scan_eq : a.stats.scan = s.discover.2
  filesFound_eq : a.stats.scan.filesFound = s.discover.1.length
  files_total : a.stats.filesParsed + a.stats.filesFailed = a.stats.scan.filesFound
  accounts : Accounts s settings.scan settings.policy s.discover.1 a
  /-- Without the files that fail, the rest of the work gives the same. -/
  isolated : ∀ (schedule : Schedule) (scan : ScanStats) (sent : Array Event),
    ∃ (a' : Analysis) (sent' : Array Event),
      (process s settings.scan settings.policy schedule
          (s.discover.1.filter (s.parses settings.scan)) scan).exec sent = (.ok a', sent') ∧
      a'.graph = a.graph ∧ a'.diagnostics = a.diagnostics ∧ a'.files = a.files ∧
      a'.failures = []
  told : ∃ reports, events = .scanStarted none :: reports ∧
    Told s settings.scan s.discover.1 a reports

/-- How an analysis ends. -/
inductive Ends (tree : FileTree) (folder : List String) (root : String) (settings : Settings) :
    Except AnalysisFailure Analysis × Array Event → Prop
  | refused {cause : AnalysisFailure} (h : Refuses tree folder root settings cause) :
      Ends tree folder root settings (.error cause, #[])
  | complete {s : Scanner} {a : Analysis} {events : Array Event}
      (hvalid : settings.validate = .ok ())
      (hmake : Scanner.make tree folder root settings.scan = .ok s)
      (hcomplete : Complete s settings a events.toList) :
      Ends tree folder root settings (.ok a, events)

variable (tree : FileTree) (folder : List String) (root : String) (settings : Settings)
  (schedule : Schedule)

theorem exec_of_refuses {cause : AnalysisFailure}
    (h : Refuses tree folder root settings cause) (sent : Array Event) :
    (perform tree folder root settings schedule).exec sent = (.error cause, sent) := by
  unfold perform
  cases h with
  | settings h =>
      rw [h]
      rfl
  | scan hvalid h =>
      unfold explore
      rw [hvalid]
      dsimp only
      rw [(Scanner.make_eq_error_iff ..).mpr h]
      rfl

theorem exec_of_make {s : Scanner} (hvalid : settings.validate = .ok ())
    (hmake : Scanner.make tree folder root settings.scan = .ok s) :
    ∃ (a : Analysis) (events : Array Event),
      (perform tree folder root settings schedule).exec #[] = (.ok a, events) ∧
        Complete s settings a events.toList := by
  obtain ⟨a, reports, hexec, hroot, hscan, haccounts, htold⟩ :=
    exec_process s settings.scan settings.policy schedule s.discover.1 s.discover.2
      #[.scanStarted none]
  refine ⟨a, #[Event.scanStarted none] ++ reports, ?_, ?_⟩
  · unfold perform explore
    rw [hvalid]
    dsimp only
    rw [hmake]
    exact hexec
  · have hfound : a.stats.scan.filesFound = s.discover.1.length := by
      rw [hscan]
      rfl
    refine ⟨hroot, s.discover_sorted, hscan, hfound, ?_, haccounts, ?_, reports, by simp, htold⟩
    · rw [haccounts.files_total, hfound]
    · exact fun schedule scan sent =>
        process_without_failing s settings.scan settings.policy schedule haccounts scan sent

/-- **An analysis accounts for every file, and for every event.** It is refused without an event
where the settings, the root or a pattern make no sense, and for that reason; otherwise it is
complete. -/
theorem perform_accounts :
    Ends tree folder root settings ((perform tree folder root settings schedule).exec #[]) ∧
      ∀ cause, Refuses tree folder root settings cause →
        (perform tree folder root settings schedule).exec #[] = (.error cause, #[]) := by
  refine ⟨?_, fun cause h => exec_of_refuses tree folder root settings schedule h #[]⟩
  cases hvalid : settings.validate with
  | error cause =>
      have hrefuses : Refuses tree folder root settings (.settings cause) := .settings hvalid
      rw [exec_of_refuses tree folder root settings schedule hrefuses]
      exact .refused hrefuses
  | ok _ =>
      cases hmake : Scanner.make tree folder root settings.scan with
      | error cause =>
          have hrefuses : Refuses tree folder root settings (.scan cause) :=
            .scan hvalid ((Scanner.make_eq_error_iff ..).mp hmake)
          rw [exec_of_refuses tree folder root settings schedule hrefuses]
          exact .refused hrefuses
      | ok s =>
          obtain ⟨a, events, hexec, hcomplete⟩ :=
            exec_of_make tree folder root settings schedule hvalid hmake
          rw [hexec]
          exact .complete hvalid hmake hcomplete

/-- Two files, of which the second may be too large, and one of another kind. -/
def largeFile : FileTree where
  entries :=
    [("a.ts", .file "function f(){}".toUTF8), ("b.ts", .file "function g() { f() }".toUTF8),
      ("notes.md", .file .empty)]

/-- Settings with no room for an entity. -/
def roomless : Settings where
  layout := { LayoutSettings.standard with maxNodesPerColumn := 0 }

/-- Settings with no room for the second file. -/
def narrow : Settings where
  scan := { maxFileSize := some 16, strictParse := some false }

/-- The scanner that these settings make. -/
def narrowScanner : Scanner :=
  match Scanner.make largeFile [] "/code" narrow.scan with
  | .ok s => s
  | .error _ => default

/-- The file that is read. -/
def smallSource : DiscoveredFile where
  path := "a.ts"
  group := "."
  language := .typeScript
  size := 14

/-- The file that is too large. -/
def largeSource : DiscoveredFile where
  path := "b.ts"
  group := "."
  language := .typeScript
  size := 20

theorem make_narrow : Scanner.make largeFile [] "/code" narrow.scan = .ok narrowScanner := by
  have hok : (Scanner.make largeFile [] "/code" narrow.scan).isOk = true := by decide +kernel
  unfold narrowScanner
  cases hmake : Scanner.make largeFile [] "/code" narrow.scan with
  | ok s => rfl
  | error cause =>
      rw [hmake] at hok
      cases hok

theorem discover_narrow : narrowScanner.discover.1 = [smallSource, largeSource] := by
  have hwalk : narrowScanner.finished.files.reverse = [smallSource, largeSource] := by
    decide +kernel
  unfold Scanner.finished at hwalk
  unfold Scanner.discover
  dsimp only
  rw [hwalk]
  exact List.mergeSort_of_pairwise (by decide +kernel)

/-- Settings that cannot be used stop the analysis before it starts. A file that is too large
does not: it is recorded, and the other one is read. -/
theorem perform_accounts_largeFile :
    (Refuses largeFile [] "/code" roomless
        (.settings (.rejected "layout.max_nodes_per_column" "must be at least 1")) ∧
      (perform largeFile [] "/code" roomless .inTurn).exec #[] =
        (.error (.settings (.rejected "layout.max_nodes_per_column" "must be at least 1")), #[])) ∧
    ∃ a events, (perform largeFile [] "/code" narrow .inTurn).exec #[] = (.ok a, events) ∧
      Complete narrowScanner narrow a events.toList ∧
      a.files.map (·.path) = ["a.ts"] ∧
      a.failures = [{ path := "b.ts", cause := .tooLarge "b.ts" 20 16 }] := by
  constructor
  · have hrefuses : Refuses largeFile [] "/code" roomless
        (.settings (.rejected "layout.max_nodes_per_column" "must be at least 1")) := .settings rfl
    exact ⟨hrefuses, (perform_accounts largeFile [] "/code" roomless .inTurn).2 _ hrefuses⟩
  · have hends := (perform_accounts largeFile [] "/code" narrow .inTurn).1
    generalize (perform largeFile [] "/code" narrow .inTurn).exec #[] = outcome at hends ⊢
    cases hends with
    | refused h =>
        cases h with
        | settings h => cases h
        | scan _ h =>
            have herror := (Scanner.make_eq_error_iff ..).mpr h
            rw [make_narrow] at herror
            cases herror
    | complete _ hmake hcomplete =>
        rename_i s a events _
        obtain rfl : narrowScanner = s := Except.ok.inj (make_narrow.symm.trans hmake)
        have haccounts := hcomplete.accounts
        rw [discover_narrow] at haccounts
        refine ⟨a, events, rfl, hcomplete, ?_, ?_⟩
        · rw [haccounts.files_paths]
          decide +kernel
        · rw [haccounts.failures_eq]
          decide +kernel

end Analysis

end CallAtlas
