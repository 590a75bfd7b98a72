import Mathlib.Data.Set.Card
import CallAtlas.Proofs.Discovery.ListingOrder

/-!
# Discovery where links are passed over

Where no links are followed, what a walk reports can be said without the walk. A path leads to
one node, and the walk meets it if no folder above it is ignored (`mem_met_iff`). What it makes
of the node then depends on the node and the path: a file is reported, ignored or of another
kind; a folder is ignored or entered; a link is passed over; anything else is ignored, passed
over, or counted as unreadable if it gives an error. A closed folder that is entered cannot be
listed, and is counted as unreadable itself.

So the files reported are those that can be analysed, are not ignored and lie in no ignored
folder, whatever a later pattern says about them; and each number is the size of a set of paths
(`discover_exact`).
-/

namespace CallAtlas

open Script (Language)

namespace Scanner

/-! ### What the report should be -/

/-- No folder above a path is ignored. -/
def Open (s : Scanner) (names : List String) : Prop :=
  ∀ above, above <+: names → above ≠ [] → above ≠ names →
    s.ignores ("/".intercalate above) true = false

/-- A file that is not ignored and in no ignored folder. -/
structure Eligible (s : Scanner) (below : FileTree) (names : List String) (bytes : ByteArray) :
    Prop where
  file : below.nodeAt? names = some (.file bytes)
  isOpen : s.Open names
  kept : s.ignores ("/".intercalate names) false = false

/-- An entry that can be looked at, is no link, is ignored and in no ignored folder. -/
structure Dropped (s : Scanner) (below : FileTree) (names : List String) (node : FileNode) :
    Prop where
  found : below.nodeAt? names = some node
  inside : names ≠ []
  notLink : node.isLink = false
  readable : node.isBroken = false
  isOpen : s.Open names
  ignored : s.ignores ("/".intercalate names) node.isFolder = true

/-- An entry that gives an error, in no ignored folder. -/
structure Faulty (s : Scanner) (below : FileTree) (names : List String) (fault : EntryFault)
    (cause : AccessFailure) : Prop where
  found : below.nodeAt? names = some (.broken fault cause)
  isOpen : s.Open names

/-- A closed folder that is not ignored and in no ignored folder. -/
structure Barred (s : Scanner) (below : FileTree) (names : List String) : Prop where
  closed : below.nodeAt? names = some .closed
  isOpen : s.Open names
  kept : s.ignores ("/".intercalate names) true = false

/-- The report on what lies below a root is right. -/
structure ReportsExactly (s : Scanner) (below : FileTree) : Prop where
  sorted : s.discover.1.Pairwise fun a b => a.path < b.path
  mem_iff : ∀ file, file ∈ s.discover.1 ↔
    ∃ names bytes, s.Eligible below names bytes ∧ file.path = "/".intercalate names ∧
      Language.ofPath? file.path = some file.language ∧ file.size = bytes.size ∧
      file.group = Path.groupOf file.path s.groupDepth s.skipped
  filesFound : s.discover.2.filesFound = s.discover.1.length
  filesUnsupported : s.discover.2.filesUnsupported =
    {names | ∃ bytes, s.Eligible below names bytes ∧
      Language.ofPath? ("/".intercalate names) = none}.ncard
  entriesIgnored : s.discover.2.entriesIgnored = {names | ∃ node, s.Dropped below names node}.ncard
  entriesUnreadable : s.discover.2.entriesUnreadable =
    {names | ∃ fault cause, s.Faulty below names fault cause}.ncard +
      {names | s.Barred below names}.ncard

/-! ### One entry -/

/-- What is seen of a node at a place. -/
def plainSight (place : List String) : FileNode → Sight
  | .link _ => .passedOver
  | node => .ofNode place node

theorem look_eq_plainSight {s : Scanner} (hlinks : s.followsLinks = false) (v : Visit)
    (name : String) (node : FileNode) :
    s.look v name node = plainSight (v.place ++ [name]) node := by
  cases node with
  | link target => simp [look, plainSight, hlinks]
  | broken fault cause => cases fault <;> rfl
  | _ => rfl

theorem isIgnored_ite {b : Bool} {f : Finding} (hf : f.isIgnored = false) :
    (if b then Finding.ignored else f).isIgnored = true ↔ b = true := by
  cases b with
  | false => simp [hf]
  | true => simp [Finding.isIgnored]

section

variable (s : Scanner) (names place : List String) (node : FileNode)

theorem isIgnored_judge :
    (s.judge names (plainSight place node)).isIgnored = true ↔
      node.isLink = false ∧ node.isBroken = false ∧
        s.ignores ("/".intercalate names) node.isFolder = true := by
  cases node with
  | link target => simp [plainSight, judge, Finding.isIgnored, FileNode.isLink]
  | broken fault cause => simp [plainSight, Sight.ofNode, judge, Finding.isIgnored, FileNode.isBroken]
  | file bytes =>
      refine (isIgnored_ite ?_).trans
        (by simp [FileNode.isLink, FileNode.isBroken, FileNode.isFolder])
      split <;> rfl
  | _ =>
      exact (isIgnored_ite rfl).trans
        (by simp [FileNode.isLink, FileNode.isBroken, FileNode.isFolder])

theorem isUnsupported_judge :
    (s.judge names (plainSight place node)).isUnsupported = true ↔
      (∃ bytes, node = .file bytes) ∧ s.ignores ("/".intercalate names) false = false ∧
        Language.ofPath? ("/".intercalate names) = none := by
  cases node with
  | file bytes =>
      dsimp only [plainSight, Sight.ofNode, judge]
      split
      · simp_all [Finding.isUnsupported]
      · split <;> simp_all [Finding.isUnsupported]
  | link target => simp [plainSight, judge, Finding.isUnsupported]
  | broken fault cause => simp [plainSight, Sight.ofNode, judge, Finding.isUnsupported]
  | _ =>
      dsimp only [plainSight, Sight.ofNode, judge]
      split <;> simp [Finding.isUnsupported]

theorem isUnreadable_judge :
    (s.judge names (plainSight place node)).isUnreadable = node.isBroken := by
  cases node with
  | file bytes =>
      dsimp only [plainSight, Sight.ofNode, judge]
      split
      · rfl
      · split <;> rfl
  | link target => rfl
  | broken fault cause => rfl
  | _ =>
      dsimp only [plainSight, Sight.ofNode, judge]
      split <;> rfl

end

/-! ### Which folders are entered -/

theorem open_concat {s : Scanner} {names : List String} {name : String} :
    s.Open (names ++ [name]) ↔
      ∀ above, above <+: names → above ≠ [] → s.ignores ("/".intercalate above) true = false := by
  constructor
  · intro h above habove hne
    refine h above (habove.trans (List.prefix_append _ _)) hne fun heq => ?_
    have hle := habove.length_le
    rw [heq, List.length_append, List.length_singleton] at hle
    omega
  · intro h above habove hne hne'
    exact h above ((List.prefix_concat_iff.mp habove).resolve_left hne') hne

/-- A folder is entered if neither it nor a folder above it is ignored. -/
theorem Open.kept {s : Scanner} {names : List String} (h : s.Open names)
    (hkept : s.ignores ("/".intercalate names) true = false) :
    ∀ above, above <+: names → above ≠ [] → s.ignores ("/".intercalate above) true = false := by
  intro above habove hne
  by_cases heq : above = names
  · rw [heq]
    exact hkept
  · exact h above habove hne heq

namespace Way

variable {s : Scanner} {v : Visit} {seen : List (List String)}

/-- No folder on a way is ignored. -/
theorem not_ignored (h : s.Way seen v) :
    ∀ above, above <+: v.names → above ≠ [] → s.ignores ("/".intercalate above) true = false := by
  induction h with
  | start =>
      intro above habove hne
      rw [names_rootVisit] at habove
      exact absurd (List.prefix_nil.mp habove) hne
  | step _ hv _ ih =>
      obtain ⟨e, _, hfinding⟩ := mem_children.mp hv
      obtain ⟨_, hvnames, hkept⟩ := finding_eq_folder hfinding
      intro above habove hne
      rw [hvnames] at habove
      rcases List.prefix_concat_iff.mp habove with rfl | habove
      · exact hkept
      · exact ih above habove hne

/-- Where no links are followed, a way only goes down. -/
theorem length_le (hlinks : s.followsLinks = false) (h : s.Way seen v) :
    ∀ place ∈ seen, place.length ≤ v.place.length := by
  induction h with
  | start => simp
  | step _ hv _ ih =>
      obtain ⟨name, _, hplace⟩ := place_of_mem_children hlinks hv
      intro place hmem
      rcases List.mem_cons.mp hmem with rfl | hmem
      · exact Nat.le_refl _
      · rw [hplace, List.length_append]
        exact (ih place hmem).trans (Nat.le_add_right _ _)

end Way

section

variable {s : Scanner} {entries : List (String × FileNode)}
  (hroot : s.rootVisit.listing = some entries) (hlinks : s.followsLinks = false)

include hroot hlinks

/-- What is seen as a folder is reached if neither it nor a folder above it is ignored. -/
theorem exists_reached {names : List String} {node : FileNode}
    {listing : Option (List (String × FileNode))}
    (hnode : (⟨entries⟩ : FileTree).nodeAt? names = some node)
    (hsight : ∀ place, plainSight place node = .folder place listing)
    (hkept : ∀ above, above <+: names → above ≠ [] →
      s.ignores ("/".intercalate above) true = false) :
    s.Reached { names, place := s.rootVisit.place ++ names, listing } := by
  induction names using List.reverseRecOn generalizing node listing with
  | nil =>
      cases hnode
      cases hsight []
      have hstart : s.Reached s.rootVisit := ⟨_, .start⟩
      have hroot' : s.rootVisit =
          { names := [], place := s.rootVisit.place ++ [], listing := some entries } := by
        rw [List.append_nil, ← hroot, ← s.names_rootVisit]
      rwa [hroot'] at hstart
  | append_singleton names name ih =>
      obtain ⟨sub, hsub, hentry⟩ := FileTree.nodeAt?_concat.mp hnode
      obtain ⟨seen, hway⟩ := ih hsub (fun _ => rfl) fun above habove =>
        hkept above (habove.trans (List.prefix_append _ _))
      refine ⟨_, .step hway (mem_children.mpr ⟨_, FileNode.mem_of_entry_eq_some hentry, ?_⟩) ?_⟩
      · refine judge_eq_folder.mpr ⟨?_, rfl, hkept _ List.prefix_rfl (by simp)⟩
        rw [look_eq_plainSight hlinks, hsight, List.append_assoc]
      · intro hmem
        have hle := hway.length_le hlinks _ hmem
        simp only [List.length_append, List.length_singleton] at hle
        omega

/-- **What a walk meets** are the nodes with no ignored folder above them. -/
theorem Surveyed.mem_met_iff {trail : List Visit} (h : s.Surveyed trail) {names : List String}
    {f : Finding} :
    (names, f) ∈ s.met trail ↔
      names ≠ [] ∧ s.Open names ∧
        ∃ node, (⟨entries⟩ : FileTree).nodeAt? names = some node ∧
          s.judge names (plainSight (s.rootVisit.place ++ names) node) = f := by
  have hfolder : s.tree.nodeAt? s.rootVisit.place = some (.folder entries) :=
    FileTree.listing?_eq_some.mp ((located_rootVisit h.wellFormed).trans hroot)
  rw [mem_met]
  constructor
  · rintro ⟨v, hv, e, he, rfl, rfl⟩
    obtain ⟨_, hway⟩ := (h.mem_iff v).mp hv
    have hplace := hway.place_eq hlinks
    refine ⟨by simp, open_concat.mpr hway.not_ignored, e.2, ?_, ?_⟩
    · have hnode := (h.wellFormed.mem_entries_iff ((h.located hv).folder he)).mp he
      rwa [hplace, List.append_assoc, FileTree.nodeAt?_append hfolder] at hnode
    · unfold finding
      rw [look_eq_plainSight hlinks, hplace, List.append_assoc]
  · rintro ⟨hne, hopen, node, hnode, rfl⟩
    obtain ⟨above, name, rfl⟩ : ∃ above name, names = above ++ [name] :=
      ⟨_, _, (List.dropLast_append_getLast hne).symm⟩
    obtain ⟨sub, hsub, hentry⟩ := FileTree.nodeAt?_concat.mp hnode
    have hreached := exists_reached hroot hlinks hsub (fun _ => rfl) (open_concat.mp hopen)
    refine ⟨_, (h.mem_iff _).mpr hreached, _, FileNode.mem_of_entry_eq_some hentry, rfl, ?_⟩
    unfold finding
    rw [look_eq_plainSight hlinks, List.append_assoc]

end

/-! ### The whole report -/

/-- Things with a property that differ in a key are as many as their keys. -/
theorem countP_eq_ncard {α β : Type} {l : List α} {key : α → β} (hnodup : (l.map key).Nodup)
    (p : α → Bool) : l.countP p = {k | ∃ a ∈ l, key a = k ∧ p a = true}.ncard := by
  classical
  have hnodup' : ((l.filter p).map key).Nodup := (List.filter_sublist.map _).nodup hnodup
  have hset : {k | ∃ a ∈ l, key a = k ∧ p a = true} = ↑((l.filter p).map key).toFinset := by
    ext k
    simp only [Set.mem_ofPred_eq, List.coe_toFinset, List.mem_map, List.mem_filter]
    exact exists_congr fun a => by tauto
  rw [hset, Set.ncard_coe_finset, List.toFinset_card_of_nodup hnodup', List.length_map,
    ← List.countP_eq_length_filter]

theorem listing_rootVisit {s : Scanner} {entries : List (String × FileNode)}
    (h : s.tree.find s.folder = .ok (.folder entries)) : s.rootVisit.listing = some entries := by
  unfold FileTree.find at h
  unfold rootVisit
  cases hplace : s.tree.resolve s.folder with
  | error cause =>
      rw [hplace] at h
      cases h
  | ok place =>
      rw [hplace] at h
      dsimp only [bind, Except.bind] at h
      split at h
      · rename_i node hnode
        cases h
        exact FileTree.listing?_eq_some.mpr hnode
      · cases h

theorem plainSight_eq_file {place : List String} {node : FileNode} {size : Nat} :
    plainSight place node = .file size ↔ ∃ bytes, node = .file bytes ∧ size = bytes.size := by
  cases node <;> simp [plainSight, Sight.ofNode, eq_comm]

theorem plainSight_eq_barred {place place' : List String} {node : FileNode} :
    plainSight place node = .folder place' none ↔ node = .closed ∧ place' = place := by
  cases node <;> simp [plainSight, Sight.ofNode, eq_comm]

theorem Eligible.ne_nil {s : Scanner} {below : FileTree} {names : List String} {bytes : ByteArray}
    (h : s.Eligible below names bytes) : names ≠ [] := by
  rintro rfl
  cases h.file

namespace Surveyed

variable {s : Scanner} {trail : List Visit} {entries : List (String × FileNode)}
  (h : s.Surveyed trail) (hroot : s.rootVisit.listing = some entries)
  (hlinks : s.followsLinks = false)

include h hroot hlinks

theorem exists_source_iff (file : DiscoveredFile) :
    (∃ names, (names, .source file) ∈ s.met trail) ↔
      ∃ names bytes, s.Eligible ⟨entries⟩ names bytes ∧ file.path = "/".intercalate names ∧
        Language.ofPath? file.path = some file.language ∧ file.size = bytes.size ∧
        file.group = Path.groupOf file.path s.groupDepth s.skipped := by
  refine exists_congr fun names => ?_
  rw [h.mem_met_iff hroot hlinks]
  constructor
  · rintro ⟨_, hopen, node, hnode, hjudge⟩
    obtain ⟨hsight, hpath, hkept, hlanguage, hgroup⟩ := judge_eq_source.mp hjudge
    obtain ⟨bytes, rfl, hsize⟩ := plainSight_eq_file.mp hsight
    exact ⟨bytes, ⟨hnode, hopen, hpath ▸ hkept⟩, hpath, hlanguage, hsize, hgroup⟩
  · rintro ⟨bytes, heligible, hpath, hlanguage, hsize, hgroup⟩
    refine ⟨heligible.ne_nil, heligible.isOpen, _, heligible.file, judge_eq_source.mpr ?_⟩
    exact ⟨plainSight_eq_file.mpr ⟨bytes, rfl, hsize⟩, hpath, hpath ▸ heligible.kept, hlanguage,
      hgroup⟩

theorem exists_unsupported_iff (names : List String) :
    (∃ f, (names, f) ∈ s.met trail ∧ f.isUnsupported = true) ↔
      ∃ bytes, s.Eligible ⟨entries⟩ names bytes ∧
        Language.ofPath? ("/".intercalate names) = none := by
  constructor
  · rintro ⟨f, hmem, hf⟩
    obtain ⟨_, hopen, node, hnode, rfl⟩ := (h.mem_met_iff hroot hlinks).mp hmem
    obtain ⟨⟨bytes, rfl⟩, hkept, hlanguage⟩ := (s.isUnsupported_judge _ _ _).mp hf
    exact ⟨bytes, ⟨hnode, hopen, hkept⟩, hlanguage⟩
  · rintro ⟨bytes, heligible, hlanguage⟩
    refine ⟨_, (h.mem_met_iff hroot hlinks).mpr
      ⟨heligible.ne_nil, heligible.isOpen, _, heligible.file, rfl⟩, ?_⟩
    exact (s.isUnsupported_judge _ _ _).mpr ⟨⟨bytes, rfl⟩, heligible.kept, hlanguage⟩

theorem exists_ignored_iff (names : List String) :
    (∃ f, (names, f) ∈ s.met trail ∧ f.isIgnored = true) ↔
      ∃ node, s.Dropped ⟨entries⟩ names node := by
  constructor
  · rintro ⟨f, hmem, hf⟩
    obtain ⟨hne, hopen, node, hnode, rfl⟩ := (h.mem_met_iff hroot hlinks).mp hmem
    obtain ⟨hlink, hreadable, hignored⟩ := (s.isIgnored_judge _ _ _).mp hf
    exact ⟨node, hnode, hne, hlink, hreadable, hopen, hignored⟩
  · rintro ⟨node, hnode, hne, hlink, hreadable, hopen, hignored⟩
    exact ⟨_, (h.mem_met_iff hroot hlinks).mpr ⟨hne, hopen, node, hnode, rfl⟩,
      (s.isIgnored_judge _ _ _).mpr ⟨hlink, hreadable, hignored⟩⟩

theorem exists_unreadable_iff (names : List String) :
    (∃ f, (names, f) ∈ s.met trail ∧ f.isUnreadable = true) ↔
      ∃ fault cause, s.Faulty ⟨entries⟩ names fault cause := by
  constructor
  · rintro ⟨f, hmem, hf⟩
    obtain ⟨_, hopen, node, hnode, rfl⟩ := (h.mem_met_iff hroot hlinks).mp hmem
    rw [isUnreadable_judge] at hf
    cases node with
    | broken fault cause => exact ⟨fault, cause, hnode, hopen⟩
    | _ => cases hf
  · rintro ⟨fault, cause, hnode, hopen⟩
    have hne : names ≠ [] := by
      rintro rfl
      cases hnode
    exact ⟨_, (h.mem_met_iff hroot hlinks).mpr ⟨hne, hopen, _, hnode, rfl⟩,
      s.isUnreadable_judge _ _ _⟩

/-- The folders on the trail that cannot be listed are the closed ones. -/
theorem exists_unlisted_iff (names : List String) :
    (∃ v ∈ trail, v.names = names ∧ v.listing.isNone = true) ↔ s.Barred ⟨entries⟩ names := by
  constructor
  · rintro ⟨v, hv, rfl, hnone⟩
    obtain ⟨_, hway⟩ := (h.mem_iff v).mp hv
    rw [Option.isNone_iff_eq_none] at hnone
    cases hway with
    | start =>
        rw [hroot] at hnone
        cases hnone
    | step hu hchild hfresh =>
        obtain ⟨e, he, hfinding⟩ := mem_children.mp hchild
        have hmem : (v.names, .folder v) ∈ s.met trail :=
          mem_met.mpr ⟨_, (h.mem_iff _).mpr ⟨_, hu⟩, e, he,
            (finding_eq_folder hfinding).2.1.symm, hfinding⟩
        obtain ⟨_, hopen, node, hnode, hjudge⟩ := (h.mem_met_iff hroot hlinks).mp hmem
        obtain ⟨hsight, _, hkept⟩ := judge_eq_folder.mp hjudge
        rw [hnone] at hsight
        obtain ⟨rfl, _⟩ := plainSight_eq_barred.mp hsight
        exact ⟨hnode, hopen, hkept⟩
  · rintro ⟨hnode, hopen, hkept⟩
    have hreached := exists_reached hroot hlinks hnode (fun _ => rfl) (hopen.kept hkept)
    exact ⟨_, (h.mem_iff _).mpr hreached, rfl, rfl⟩

omit hroot hlinks in
theorem countP_met (p : Finding → Bool) :
    ((s.met trail).map (·.2)).countP p =
      {names | ∃ f, (names, f) ∈ s.met trail ∧ p f = true}.ncard := by
  rw [List.countP_map, countP_eq_ncard h.nodup_met]
  refine congrArg Set.ncard (Set.ext fun names => ?_)
  simp [and_left_comm]

omit hroot hlinks in
/-- What is found on the trail are the entries met and the folders that cannot be listed. -/
theorem countP_findings (p : Finding → Bool) :
    (trail.flatMap s.findings).countP p =
      {names | ∃ f, (names, f) ∈ s.met trail ∧ p f = true}.ncard +
        if p .unreadable then
          {names | ∃ v ∈ trail, v.names = names ∧ v.listing.isNone = true}.ncard
        else 0 := by
  rw [(findings_perm s trail).countP_eq, List.countP_append, List.countP_replicate,
    h.countP_met, countP_eq_ncard h.nodup_names]

end Surveyed

theorem reportsExactly {s : Scanner} {entries : List (String × FileNode)} (hs : s.tree.WellFormed)
    (hroot : s.rootVisit.listing = some entries) (hlinks : s.followsLinks = false) :
    s.ReportsExactly ⟨entries⟩ := by
  obtain ⟨trail, hsurveyed⟩ := (oneWay_of_not_followsLinks hlinks).exists_surveyed hs
  obtain ⟨_, h⟩ := hsurveyed.traced
  refine ⟨h.pairwise_discover hs, fun file => ?_, ?_, ?_, ?_, ?_⟩
  · rw [(h.discover_perm.trans (filterMap_findings s trail)).mem_iff,
      ← hsurveyed.exists_source_iff hroot hlinks]
    constructor
    · intro hmem
      obtain ⟨f, hf, hfile⟩ := List.mem_filterMap.mp hmem
      obtain ⟨⟨names, f⟩, hmet, rfl⟩ := List.mem_map.mp hf
      cases f with
      | source found =>
          cases hfile
          exact ⟨names, hmet⟩
      | _ => cases hfile
    · rintro ⟨names, hmet⟩
      exact List.mem_filterMap.mpr ⟨_, List.mem_map_of_mem hmet, rfl⟩
  · rw [h.discover_stats]
  · rw [h.discover_stats]
    refine (hsurveyed.countP_findings _).trans (congrArg Set.ncard (Set.ext fun names => ?_))
    exact hsurveyed.exists_unsupported_iff hroot hlinks names
  · rw [h.discover_stats]
    refine (hsurveyed.countP_findings _).trans (congrArg Set.ncard (Set.ext fun names => ?_))
    exact hsurveyed.exists_ignored_iff hroot hlinks names
  · rw [h.discover_stats]
    refine (hsurveyed.countP_findings _).trans (congrArg₂ (· + ·) ?_ ?_)
    · refine congrArg Set.ncard (Set.ext fun names => ?_)
      exact hsurveyed.exists_unreadable_iff hroot hlinks names
    · refine congrArg Set.ncard (Set.ext fun names => ?_)
      exact hsurveyed.exists_unlisted_iff hroot hlinks names

/-- **Discovery is exact** where links are passed over: the files reported are those that can
be analysed, are not ignored and lie in no ignored folder, by path; the numbers are those of
the files found, of the other files that would have qualified, of the entries that were ignored,
and of the entries that gave an error with the folders that could not be listed; and the order
in which folders list their entries does not matter. -/
theorem discover_exact (s : Scanner) (hs : s.tree.WellFormed) (hlinks : s.followsLinks = false)
    (entries : List (String × FileNode))
    (hroot : s.tree.find s.folder = .ok (.folder entries)) :
    s.ReportsExactly ⟨entries⟩ ∧
      ∀ t : FileTree, t.WellFormed → s.tree.SameContent t → (s.on t).discover = s.discover := by
  refine ⟨reportsExactly hs (listing_rootVisit hroot) hlinks, fun t ht hsame => ?_⟩
  exact discover_eq_of_sameContent hsame hs ht (oneWay_of_not_followsLinks hlinks)

/-- A folder is ignored, and a file in it is not. Beside it stand a link, two pipes, a folder
that is closed and an entry that gives an error. -/
def keptInIgnored : Scanner where
  tree :=
    { entries :=
        [("gen", .folder [("keep.ts", .file "f()".toUTF8)]),
          ("src", .folder
            [("app.ts", .file "g()".toUTF8), ("notes.md", .file .empty), ("up", .link ".."),
              ("pipe.ts", .special), ("pipe.tmp", .special), ("private", .closed),
              ("lost.ts", .broken .metadata .inputOutput)])] }
  folder := []
  root := "/code"
  policy :=
    { root := "/code"
      rules :=
        match rulesOf ["gen/", "!gen/keep.ts", "*.tmp"] with
        | .ok rules => rules
        | .error _ => [] }
  followsLinks := false
  groupDepth := 1
  skipped := ["src"]

theorem wellFormed_keptInIgnored : keptInIgnored.tree.WellFormed :=
  FileTree.wellFormed_of_folders (by decide +kernel)

/-- A file that is taken back in is not found in an ignored folder, nor is a pipe a file. -/
theorem discover_exact_keptInIgnored :
    (keptInIgnored.tree.WellFormed ∧ keptInIgnored.followsLinks = false ∧
      keptInIgnored.tree.find keptInIgnored.folder = .ok (.folder keptInIgnored.tree.entries)) ∧
    (keptInIgnored.ReportsExactly keptInIgnored.tree ∧
      ∀ t : FileTree, t.WellFormed → keptInIgnored.tree.SameContent t →
        (keptInIgnored.on t).discover = keptInIgnored.discover) ∧
    keptInIgnored.ignores "gen/keep.ts" false = false ∧
    keptInIgnored.discover =
      ([{ path := "src/app.ts", group := ".", language := .typeScript, size := 3 }],
        { filesFound := 1, filesUnsupported := 1, entriesIgnored := 2, entriesUnreadable := 2 }) := by
  refine ⟨⟨wellFormed_keptInIgnored, rfl, rfl⟩, ?_, by decide +kernel, by decide +kernel⟩
  exact discover_exact keptInIgnored wellFormed_keptInIgnored rfl _ rfl

end Scanner

end CallAtlas
