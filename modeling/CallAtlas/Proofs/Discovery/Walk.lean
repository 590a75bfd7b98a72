import CallAtlas.Discovery
import CallAtlas.Proofs.FileTree

/-!
# The walk through a file tree

A walk takes the next folder from a stack, goes through its entries and puts the folders
among them on the stack. What it makes of an entry is one of six things (`Finding`), and this
depends on the entry and on the folder, but on nothing that was met before. So the walk is
told by its **trail**: the folders that it has listed, in order.

`Traced` says what holds of a trail after any number of steps. Every folder on it was reached
on a way that passes no place twice (`Way`), no two of them have the same path or the same
place, and the folders that they lead to are on the trail, on the stack, or at a place that is
listed. A step keeps this (`Traced.step`), and so does a run (`Traced.walk`).

**The walk ends.** A folder is put on the stack by an entry of a listed folder, and listed
folders stand at different places, so there are no more steps than entries in the tree and one
for the root (`Traced.pending_eq_nil`). With links this does not depend on how deep a path
could be followed.
-/

namespace CallAtlas

open Script (Language)

namespace Scanner

/-! ### What an entry turns out to be -/

/-- What the walk makes of an entry. -/
inductive Finding where
  /-- A link that is not followed, or what is neither a file nor a folder. -/
  | passedOver
  | unreadable
  | ignored
  | unsupported
  | source (file : DiscoveredFile)
  | folder (visit : Visit)

namespace Finding

/-- The file to be reported. -/
def file? : Finding → Option DiscoveredFile
  | source file => some file
  | _ => none

/-- The folder to be listed. -/
def visit? : Finding → Option Visit
  | folder visit => some visit
  | _ => none

/-- Is it an ignored entry? -/
def isIgnored : Finding → Bool
  | ignored => true
  | _ => false

/-- Is it a file of another kind? -/
def isUnsupported : Finding → Bool
  | unsupported => true
  | _ => false

/-- Is it an entry that could not be looked at? -/
def isUnreadable : Finding → Bool
  | unreadable => true
  | _ => false

/-- What is counted while walking. -/
def stats (met : List Finding) : ScanStats where
  filesUnsupported := met.countP isUnsupported
  entriesIgnored := met.countP isIgnored
  entriesUnreadable := met.countP isUnreadable

theorem stats_cons (f : Finding) (met : List Finding) :
    stats (f :: met) =
      { filesUnsupported := (stats met).filesUnsupported + if f.isUnsupported then 1 else 0
        entriesIgnored := (stats met).entriesIgnored + if f.isIgnored then 1 else 0
        entriesUnreadable := (stats met).entriesUnreadable + if f.isUnreadable then 1 else 0 } := by
  simp only [stats, List.countP_cons]

end Finding

/-- What the walk makes of what it sees under a path. -/
def judge (s : Scanner) (names : List String) : Sight → Finding
  | .passedOver => .passedOver
  | .unreadable => .unreadable
  | .file size =>
      let path := "/".intercalate names
      if s.ignores path false then .ignored
      else
        match Language.ofPath? path with
        | none => .unsupported
        | some language =>
            .source { path, group := Path.groupOf path s.groupDepth s.skipped, language, size }
  | .folder place listing =>
      if s.ignores ("/".intercalate names) true then .ignored
      else .folder { names, place, listing }
  | .other => if s.ignores ("/".intercalate names) false then .ignored else .passedOver

/-- What the walk makes of an entry of a folder. -/
def finding (s : Scanner) (v : Visit) (entry : String × FileNode) : Finding :=
  s.judge (v.names ++ [entry.1]) (s.look v entry.1 entry.2)

/-- What a folder is seen to hold. -/
def Visit.entries (v : Visit) : List (String × FileNode) := v.listing.getD []

/-- What the walk makes of a folder: of its entries, or of the folder itself where it cannot be
listed. -/
def findings (s : Scanner) (v : Visit) : List Finding :=
  match v.listing with
  | none => [.unreadable]
  | some entries => entries.map (s.finding v)

/-- The folders that a folder leads to. -/
def children (s : Scanner) (v : Visit) : List Visit := (s.findings v).filterMap Finding.visit?

/-- A walk has met these entries, the last one first. -/
structure Walk.Records (w : Walk) (met : List Finding) : Prop where
  files_eq : w.files = met.filterMap Finding.file?
  stats_eq : w.stats = Finding.stats met

/-- One entry adds what it turns out to be. -/
theorem meet_spec (s : Scanner) (v : Visit) {w : Walk} {met : List Finding} (h : w.Records met)
    (e : String × FileNode) :
    (s.meet v w e).Records (s.finding v e :: met) ∧
      (s.meet v w e).pending = (s.finding v e).visit?.toList ++ w.pending ∧
      (s.meet v w e).listed = w.listed := by
  obtain ⟨hfiles, hstats⟩ := h
  unfold meet finding judge meetFile Walk.countUnreadable
  dsimp only
  cases s.look v e.1 e.2 with
  | passedOver => exact ⟨⟨hfiles, hstats⟩, rfl, rfl⟩
  | unreadable => exact ⟨⟨hfiles, by rw [hstats, Finding.stats_cons]; rfl⟩, rfl, rfl⟩
  | file size =>
      dsimp only
      split
      · exact ⟨⟨hfiles, by rw [hstats, Finding.stats_cons]; rfl⟩, rfl, rfl⟩
      · cases Language.ofPath? ("/".intercalate (v.names ++ [e.1])) with
        | none => exact ⟨⟨hfiles, by rw [hstats, Finding.stats_cons]; rfl⟩, rfl, rfl⟩
        | some language => exact ⟨⟨by rw [hfiles]; rfl, hstats⟩, rfl, rfl⟩
  | folder place listing =>
      dsimp only
      split
      · exact ⟨⟨hfiles, by rw [hstats, Finding.stats_cons]; rfl⟩, rfl, rfl⟩
      · exact ⟨⟨hfiles, hstats⟩, rfl, rfl⟩
  | other =>
      dsimp only
      split
      · exact ⟨⟨hfiles, by rw [hstats, Finding.stats_cons]; rfl⟩, rfl, rfl⟩
      · exact ⟨⟨hfiles, hstats⟩, rfl, rfl⟩

theorem foldl_meet_spec (s : Scanner) (v : Visit) (es : List (String × FileNode)) {w : Walk}
    {met : List Finding} (h : w.Records met) :
    (es.foldl (s.meet v) w).Records ((es.map (s.finding v)).reverse ++ met) ∧
      (es.foldl (s.meet v) w).pending =
        ((es.map (s.finding v)).filterMap Finding.visit?).reverse ++ w.pending ∧
      (es.foldl (s.meet v) w).listed = w.listed := by
  induction es generalizing w met with
  | nil => exact ⟨h, rfl, rfl⟩
  | cons e es ih =>
      obtain ⟨hrecords, hpending, hlisted⟩ := s.meet_spec v h e
      obtain ⟨hrecords', hpending', hlisted'⟩ := ih hrecords
      refine ⟨?_, ?_, hlisted'.trans hlisted⟩
      · simpa using hrecords'
      · rw [List.foldl_cons, hpending', hpending, List.map_cons]
        cases hvisit : (s.finding v e).visit? with
        | none => simp [hvisit]
        | some u => simp [hvisit]

/-- A folder whose place is listed is left alone where links are followed. -/
theorem list_of_listed {s : Scanner} {v : Visit} {w : Walk} (hlinks : s.followsLinks = true)
    (h : v.place ∈ w.listed) : s.list v w = w := by
  unfold list
  rw [if_pos]
  simp [hlinks, h]

/-- Any other folder is gone through, or counted where it cannot be listed. -/
theorem list_of_fresh {s : Scanner} {v : Visit} {w : Walk} {met : List Finding} (h : w.Records met)
    (hfresh : ¬ (s.followsLinks = true ∧ v.place ∈ w.listed)) :
    (s.list v w).Records ((s.findings v).reverse ++ met) ∧
      (s.list v w).pending = (s.children v).reverse ++ w.pending ∧
      (s.list v w).listed = v.place :: w.listed := by
  have hrecords : ({ w with listed := v.place :: w.listed } : Walk).Records met :=
    ⟨h.files_eq, h.stats_eq⟩
  unfold list children findings
  rw [if_neg (by simpa using hfresh)]
  cases v.listing with
  | none =>
      refine ⟨⟨h.files_eq, ?_⟩, rfl, rfl⟩
      unfold Walk.countUnreadable
      rw [h.stats_eq, List.reverse_singleton, List.singleton_append, Finding.stats_cons]
      rfl
  | some entries => exact s.foldl_meet_spec v entries hrecords

/-! ### From a folder to those in it -/

/-- What is seen as a folder stands where it is seen, and can be listed where the node there
can. -/
theorem Sight.ofNode_eq_folder {place place' : List String} {node : FileNode}
    {listing : Option (List (String × FileNode))} (h : ofNode place node = .folder place' listing) :
    place' = place ∧ ∀ t : FileTree, t.nodeAt? place = some node → t.listing? place = listing := by
  cases node with
  | folder entries =>
      cases h
      exact ⟨rfl, fun t hnode => FileTree.listing?_eq_some.mpr hnode⟩
  | closed =>
      cases h
      refine ⟨rfl, fun t hnode => ?_⟩
      unfold FileTree.listing?
      rw [hnode]
  | _ => cases h

/-- A folder comes into sight as an entry, or as what a link leads to. -/
theorem look_eq_folder {s : Scanner} {v : Visit} {name : String} {node : FileNode}
    {place : List String} {listing : Option (List (String × FileNode))}
    (h : s.look v name node = .folder place listing) :
    Sight.ofNode (v.place ++ [name]) node = .folder place listing ∨
      (s.followsLinks = true ∧ s.tree.listing? place = listing) := by
  unfold look at h
  split at h
  · cases h
  · cases h
  · split at h
    · cases h
    · rename_i hlinks
      split at h
      · cases h
      · split at h
        · rename_i hnode
          obtain ⟨rfl, hlisting⟩ := Sight.ofNode_eq_folder h
          exact .inr ⟨by simpa using hlinks, hlisting _ hnode⟩
        · cases h
  · cases h
  · exact .inl h

theorem judge_eq_folder {s : Scanner} {names : List String} {sight : Sight} {v : Visit} :
    s.judge names sight = .folder v ↔
      sight = .folder v.place v.listing ∧ v.names = names ∧
        s.ignores ("/".intercalate names) true = false := by
  cases sight with
  | passedOver => simp [judge]
  | unreadable => simp [judge]
  | file size =>
      simp only [judge, reduceCtorEq, false_and, iff_false]
      split
      · simp
      · split <;> simp
  | folder place listing =>
      obtain ⟨names', place', listing'⟩ := v
      cases hignored : s.ignores ("/".intercalate names) true with
      | false => simp [judge, hignored, and_comm, eq_comm]
      | true => simp [judge, hignored]
  | other =>
      simp only [judge, reduceCtorEq, false_and, iff_false]
      split <;> simp

theorem finding_eq_folder {s : Scanner} {u v : Visit} {e : String × FileNode}
    (h : s.finding u e = .folder v) :
    s.look u e.1 e.2 = .folder v.place v.listing ∧ v.names = u.names ++ [e.1] ∧
      s.ignores ("/".intercalate (u.names ++ [e.1])) true = false :=
  judge_eq_folder.mp h

theorem children_eq (s : Scanner) (v : Visit) :
    s.children v = v.entries.filterMap (Finding.visit? ∘ s.finding v) := by
  unfold children findings Visit.entries
  cases v.listing with
  | none => rfl
  | some entries => exact List.filterMap_map

theorem mem_children {s : Scanner} {u v : Visit} :
    v ∈ s.children u ↔ ∃ e ∈ u.entries, s.finding u e = .folder v := by
  rw [children_eq, List.mem_filterMap]
  refine exists_congr fun e => and_congr_right fun _ => ?_
  dsimp only [Function.comp_apply]
  cases s.finding u e <;> simp [Finding.visit?]

theorem length_children_le (s : Scanner) (v : Visit) :
    (s.children v).length ≤ v.entries.length := by
  rw [children_eq]
  exact List.length_filterMap_le _ _

/-- The folder lists what is listed at its place. -/
def Located (s : Scanner) (v : Visit) : Prop := s.tree.listing? v.place = v.listing

/-- A folder that holds something stands at its place. -/
theorem Located.folder {s : Scanner} {v : Visit} (h : s.Located v) {e : String × FileNode}
    (he : e ∈ v.entries) : s.tree.nodeAt? v.place = some (.folder v.entries) := by
  unfold Visit.entries at he ⊢
  unfold Located at h
  cases hlisting : v.listing with
  | none =>
      rw [hlisting] at he
      cases he
  | some entries => exact FileTree.listing?_eq_some.mp (h.trans hlisting)

theorem Located.nodup {s : Scanner} (hs : s.tree.WellFormed) {v : Visit} (h : s.Located v) :
    (v.entries.map (·.1)).Nodup := by
  cases hentries : v.entries with
  | nil => exact List.nodup_nil
  | cons e rest =>
      rw [← hentries]
      exact (hs _ _ (h.folder (hentries ▸ List.mem_cons_self))).nodup

section Children

variable {s : Scanner} (hs : s.tree.WellFormed) {u v : Visit} (hu : s.Located u)

include hs hu

theorem Located.child (hv : v ∈ s.children u) : s.Located v := by
  obtain ⟨e, he, hfinding⟩ := mem_children.mp hv
  obtain ⟨hlook, _⟩ := finding_eq_folder hfinding
  rcases look_eq_folder hlook with hsight | ⟨_, hlisting⟩
  · have hnode := (hs.mem_entries_iff (hu.folder he)).mp he
    obtain ⟨hplace, hlisting⟩ := Sight.ofNode_eq_folder hsight
    unfold Located
    rw [hplace, hlisting _ hnode]
  · exact hlisting

/-- Different children have different names. -/
theorem Located.nodup_children : ((s.children u).map (·.names)).Nodup := by
  have hnames : u.entries.Pairwise fun e e' => e.1 ≠ e'.1 :=
    List.pairwise_map.mp (hu.nodup hs)
  rw [children_eq]
  refine List.pairwise_map.mpr (hnames.filterMap _ ?_)
  intro e e' hne v hv v' hv' heq
  have hchild : ∀ {e v}, (Finding.visit? ∘ s.finding u) e = some v →
      v.names = u.names ++ [e.1] := by
    intro e v hv
    cases hfinding : s.finding u e with
    | folder v' =>
        rw [Function.comp_apply, hfinding] at hv
        cases hv
        exact (finding_eq_folder hfinding).2.1
    | _ =>
        rw [Function.comp_apply, hfinding] at hv
        cases hv
  rw [hchild hv, hchild hv', List.append_cancel_left_eq] at heq
  exact hne (List.singleton_inj.mp heq)

end Children

theorem names_of_mem_children {s : Scanner} {u v : Visit} (h : v ∈ s.children u) :
    ∃ name, v.names = u.names ++ [name] := by
  obtain ⟨e, _, hfinding⟩ := mem_children.mp h
  exact ⟨e.1, (finding_eq_folder hfinding).2.1⟩

/-- Where no links are followed, a folder stands in the one that leads to it. -/
theorem place_of_mem_children {s : Scanner} (hlinks : s.followsLinks = false) {u v : Visit}
    (h : v ∈ s.children u) : ∃ name, v.names = u.names ++ [name] ∧ v.place = u.place ++ [name] := by
  obtain ⟨e, _, hfinding⟩ := mem_children.mp h
  obtain ⟨hlook, hnames, _⟩ := finding_eq_folder hfinding
  rcases look_eq_folder hlook with hsight | ⟨hlinks', _⟩
  · exact ⟨e.1, hnames, (Sight.ofNode_eq_folder hsight).1⟩
  · rw [hlinks] at hlinks'
    cases hlinks'

/-! ### Ways -/

/-- A folder is reached from the root on a way that passes these places, the last one first,
and none of them twice. -/
inductive Way (s : Scanner) : List (List String) → Visit → Prop
  | start : Way s [s.rootVisit.place] s.rootVisit
  | step {seen : List (List String)} {u v : Visit} (hu : Way s seen u)
      (hv : v ∈ s.children u) (hfresh : v.place ∉ seen) : Way s (v.place :: seen) v

@[simp]
theorem names_rootVisit (s : Scanner) : s.rootVisit.names = [] := by
  unfold rootVisit
  split <;> rfl

theorem located_rootVisit {s : Scanner} (hs : s.tree.WellFormed) : s.Located s.rootVisit := by
  unfold Located rootVisit
  cases hplace : s.tree.resolve s.folder with
  | ok place => rfl
  | error cause =>
      -- A path that leads nowhere is not the place of a folder.
      dsimp only
      cases hlisting : s.tree.listing? s.folder with
      | none => rfl
      | some entries =>
          rw [hs.resolve_eq (FileTree.listing?_eq_some.mp hlisting)] at hplace
          cases hplace

namespace Way

variable {s : Scanner} {v : Visit} {seen : List (List String)}

theorem located (hs : s.tree.WellFormed) (h : s.Way seen v) : s.Located v := by
  induction h with
  | start => exact located_rootVisit hs
  | step _ hv _ ih => exact ih.child hs hv

theorem root_mem (h : s.Way seen v) : s.rootVisit.place ∈ seen := by
  induction h with
  | start => exact List.mem_singleton_self _
  | step _ _ _ ih => exact List.mem_cons_of_mem _ ih

/-- Where no links are followed, a path tells its place. -/
theorem place_eq (hlinks : s.followsLinks = false) (h : s.Way seen v) :
    v.place = s.rootVisit.place ++ v.names := by
  induction h with
  | start => rw [names_rootVisit, List.append_nil]
  | step _ hv _ ih =>
      obtain ⟨name, hname, hplace⟩ := place_of_mem_children hlinks hv
      rw [hplace, hname, ih, List.append_assoc]

end Way

/-! ### The trail of a walk -/

/-- After some steps, the walk has listed the folders of the trail, the last one first. -/
structure Traced (s : Scanner) (steps : Nat) (trail : List Visit) (w : Walk) :
    Prop where
  listed_eq : w.listed = trail.map (·.place)
  records : w.Records (trail.flatMap fun v => (s.findings v).reverse)
  parent : ∀ v ∈ w.pending ++ trail, v = s.rootVisit ∨ ∃ u ∈ trail, v ∈ s.children u
  way : ∀ v ∈ trail, ∃ seen, s.Way seen v ∧ seen ⊆ w.listed
  names_nodup : ((w.pending ++ trail).map (·.names)).Nodup
  places_nodup : (trail.map (·.place)).Nodup
  /-- What the trail leads to is not lost. -/
  met : ∀ v, (v = s.rootVisit ∨ ∃ u ∈ trail, v ∈ s.children u) →
    v ∈ w.pending ++ trail ∨ (s.followsLinks = true ∧ v.place ∈ w.listed)
  steps_le : w.pending.length + steps ≤ 1 + (trail.map (·.entries.length)).sum

namespace Traced

variable {s : Scanner} {steps : Nat} {trail : List Visit} {w : Walk}

theorem start (s : Scanner) : s.Traced 0 [] s.start := by
  unfold Scanner.start
  refine ⟨rfl, ⟨rfl, rfl⟩, ?_, ?_, ?_, List.nodup_nil, ?_, Nat.le_refl _⟩
  · simp
  · simp
  · simp
  · simp

variable (hs : s.tree.WellFormed)

include hs

theorem located (h : s.Traced steps trail w) : ∀ v ∈ w.pending ++ trail, s.Located v := by
  have htrail : ∀ u ∈ trail, s.Located u := by
    intro u hu
    obtain ⟨seen, hway, _⟩ := h.way u hu
    exact hway.located hs
  intro v hv
  rcases h.parent v hv with rfl | ⟨u, hu, hchild⟩
  · exact located_rootVisit hs
  · exact (htrail u hu).child hs hchild

/-- **The walk ends**: there are no more steps than entries in the tree and one. -/
theorem pending_eq_nil (h : s.Traced steps trail w) (hsteps : s.tree.weight < steps) :
    w.pending = [] := by
  have hsum : (trail.map (·.entries.length)).sum ≤ s.tree.weight := by
    calc (trail.map (·.entries.length)).sum
        = ((trail.map (·.place)).map fun place =>
            ((s.tree.listing? place).getD []).length).sum := by
          rw [List.map_map]
          refine congrArg List.sum (List.map_congr_left fun v hv => ?_)
          have hlocated : s.tree.listing? v.place = v.listing :=
            h.located hs v (List.mem_append_right _ hv)
          rw [Function.comp_apply, hlocated, Visit.entries]
      _ ≤ s.tree.weight := FileTree.sum_listing_le_weight h.places_nodup
  have hle := h.steps_le
  exact List.length_eq_zero_iff.mp (by omega)

omit hs in
/-- The next folder stands at a new place, unless links are followed and its place is
listed. -/
theorem fresh (h : s.Traced steps trail w) {v : Visit} {rest : List Visit}
    (hnext : w.pending = v :: rest) (hskip : ¬ (s.followsLinks = true ∧ v.place ∈ w.listed)) :
    v.place ∉ w.listed := by
  by_cases hlinks : s.followsLinks = true
  · exact fun hmem => hskip ⟨hlinks, hmem⟩
  · -- Without links, a folder at the same place would have the same path.
    rw [Bool.not_eq_true] at hlinks
    have htrail : ∀ u ∈ trail, u.place = s.rootVisit.place ++ u.names := by
      intro u hu
      obtain ⟨seen, hway, _⟩ := h.way u hu
      exact hway.place_eq hlinks
    have hplace : v.place = s.rootVisit.place ++ v.names := by
      rcases h.parent v (by simp [hnext]) with rfl | ⟨u, hu, hchild⟩
      · rw [names_rootVisit, List.append_nil]
      · obtain ⟨name, hname, hplace⟩ := place_of_mem_children hlinks hchild
        rw [hplace, hname, htrail u hu, List.append_assoc]
    intro hmem
    rw [h.listed_eq] at hmem
    obtain ⟨u, hu, heq⟩ := List.mem_map.mp hmem
    rw [htrail u hu, hplace, List.append_cancel_left_eq] at heq
    have hnodup := h.names_nodup
    rw [hnext, List.cons_append, List.map_cons] at hnodup
    refine (List.nodup_cons.mp hnodup).1 ?_
    rw [← heq]
    exact List.mem_map_of_mem (List.mem_append_right _ hu)

omit hs in
/-- A folder at a listed place is dropped from the stack. -/
theorem skip (h : s.Traced steps trail w) {v : Visit} {rest : List Visit}
    (hnext : w.pending = v :: rest) (hskip : s.followsLinks = true ∧ v.place ∈ w.listed) :
    s.Traced (steps + 1) trail { w with pending := rest } where
  listed_eq := h.listed_eq
  records := ⟨h.records.files_eq, h.records.stats_eq⟩
  parent := fun u hu => h.parent u (by
    rw [hnext]
    exact List.mem_cons_of_mem v hu)
  way := h.way
  names_nodup := by
    have hnodup := h.names_nodup
    rw [hnext] at hnodup
    exact (List.nodup_cons.mp hnodup).2
  places_nodup := h.places_nodup
  met := by
    intro u hu
    rcases h.met u hu with hmem | hlisted
    · rw [hnext, List.cons_append] at hmem
      rcases List.mem_cons.mp hmem with rfl | hmem
      · exact .inr hskip
      · exact .inl hmem
    · exact .inr hlisted
  steps_le := by
    have hle := h.steps_le
    rw [hnext, List.length_cons] at hle
    dsimp only
    omega

/-- The paths of the folders in a folder are new. -/
theorem names_nodup_visit (h : s.Traced steps trail w) {v : Visit} {rest : List Visit}
    (hnext : w.pending = v :: rest) :
    (((s.children v).reverse ++ rest ++ v :: trail).map (·.names)).Nodup := by
  have hv : v ∈ w.pending := by simp [hnext]
  have hperm : ((s.children v).reverse ++ rest ++ v :: trail).Perm
      (s.children v ++ (w.pending ++ trail)) := by
    rw [hnext, List.append_assoc]
    exact (List.reverse_perm _).append List.perm_middle
  rw [(hperm.map _).nodup_iff, List.map_append, List.nodup_append]
  refine ⟨(h.located hs v (List.mem_append_left _ hv)).nodup_children hs, h.names_nodup, ?_⟩
  rintro names hchild _ hold rfl
  obtain ⟨c, hc, rfl⟩ := List.mem_map.mp hchild
  obtain ⟨z, hz, hzc⟩ := List.mem_map.mp hold
  obtain ⟨name, hname⟩ := names_of_mem_children hc
  -- A folder with that path would have been reached from one with the path of `v`, which is
  -- not listed yet.
  rcases h.parent z hz with rfl | ⟨u, hu, hchild⟩
  · rw [names_rootVisit, hname] at hzc
    simp at hzc
  · obtain ⟨name', hname'⟩ := names_of_mem_children hchild
    rw [hname, hname'] at hzc
    have hnodup := h.names_nodup
    rw [List.map_append, List.nodup_append] at hnodup
    exact hnodup.2.2 _ (List.mem_map_of_mem hv) _ (List.mem_map_of_mem hu)
      (List.append_inj_left' hzc rfl).symm

/-- A folder at a new place is listed. -/
theorem visit (h : s.Traced steps trail w) {v : Visit} {rest : List Visit}
    (hnext : w.pending = v :: rest) (hskip : ¬ (s.followsLinks = true ∧ v.place ∈ w.listed)) :
    s.Traced (steps + 1) (v :: trail) (s.list v { w with pending := rest }) := by
  have hrecords : ({ w with pending := rest } : Walk).Records
      (trail.flatMap fun v => (s.findings v).reverse) :=
    ⟨h.records.files_eq, h.records.stats_eq⟩
  obtain ⟨hrecords, hpending, hlisted⟩ := list_of_fresh hrecords hskip
  have hfresh := h.fresh hnext hskip
  have hold : ∀ u ∈ w.pending ++ trail, u ∈ rest ++ v :: trail := by
    intro u hu
    rw [hnext, List.cons_append] at hu
    exact List.perm_middle.mem_iff.mpr hu
  have hparent : ∀ u, (u = s.rootVisit ∨ ∃ p ∈ trail, u ∈ s.children p) →
      u = s.rootVisit ∨ ∃ p ∈ v :: trail, u ∈ s.children p := by
    rintro u (rfl | ⟨p, hp, hu⟩)
    · exact .inl rfl
    · exact .inr ⟨p, List.mem_cons_of_mem v hp, hu⟩
  refine ⟨?_, ?_, ?_, ?_, ?_, ?_, ?_, ?_⟩
  · rw [hlisted, h.listed_eq, List.map_cons]
  · rwa [List.flatMap_cons]
  · intro u hu
    rw [hpending, List.append_assoc] at hu
    rcases List.mem_append.mp hu with hu | hu
    · exact .inr ⟨v, List.mem_cons_self, List.mem_reverse.mp hu⟩
    · refine hparent u (h.parent u ?_)
      rw [hnext, List.cons_append]
      exact List.perm_middle.mem_iff.mp hu
  · intro u hu
    rw [hlisted]
    rcases List.mem_cons.mp hu with rfl | hu
    · rcases h.parent u (by simp [hnext]) with rfl | ⟨p, hp, hchild⟩
      · exact ⟨_, .start, by simp⟩
      · obtain ⟨seen, hway, hseen⟩ := h.way p hp
        refine ⟨_, .step hway hchild fun hmem => hfresh (hseen hmem), ?_⟩
        exact List.cons_subset_cons _ hseen
    · obtain ⟨seen, hway, hseen⟩ := h.way u hu
      exact ⟨seen, hway, List.subset_cons_of_subset _ hseen⟩
  · rw [hpending]
    exact h.names_nodup_visit hs hnext
  · rw [List.map_cons, List.nodup_cons, ← h.listed_eq]
    exact ⟨hfresh, h.listed_eq ▸ h.places_nodup⟩
  · intro u hu
    rw [hpending, hlisted, List.append_assoc]
    have hcases : u ∈ s.children v ∨ (u = s.rootVisit ∨ ∃ p ∈ trail, u ∈ s.children p) := by
      rcases hu with rfl | ⟨p, hp, hu⟩
      · exact .inr (.inl rfl)
      · rcases List.mem_cons.mp hp with rfl | hp
        · exact .inl hu
        · exact .inr (.inr ⟨p, hp, hu⟩)
    rcases hcases with hu | hu
    · exact .inl (List.mem_append_left _ (List.mem_reverse.mpr hu))
    · rcases h.met u hu with hmem | ⟨hlinks, hmem⟩
      · exact .inl (List.mem_append_right _ (hold u hmem))
      · exact .inr ⟨hlinks, List.mem_cons_of_mem _ hmem⟩
  · have hle := h.steps_le
    have hchildren := s.length_children_le v
    rw [hnext, List.length_cons] at hle
    rw [hpending, List.length_append, List.length_reverse, List.map_cons, List.sum_cons]
    dsimp only
    omega

/-- One step of the walk. -/
theorem step (h : s.Traced steps trail w) {v : Visit} {rest : List Visit}
    (hnext : w.pending = v :: rest) :
    ∃ trail', s.Traced (steps + 1) trail' (s.list v { w with pending := rest }) := by
  by_cases hskip : s.followsLinks = true ∧ v.place ∈ w.listed
  · have hsame : s.list v { w with pending := rest } = { w with pending := rest } :=
      list_of_listed hskip.1 hskip.2
    rw [hsame]
    exact ⟨trail, h.skip hnext hskip⟩
  · exact ⟨v :: trail, h.visit hs hnext hskip⟩

/-- A walk goes on until nothing is left or all steps are made. -/
theorem walk (h : s.Traced steps trail w) (fuel : Nat) :
    ∃ trail' steps', s.Traced steps' trail' (s.walk fuel w) ∧
      ((s.walk fuel w).pending = [] ∨ steps' = steps + fuel) := by
  induction fuel generalizing steps trail w with
  | zero => exact ⟨trail, steps, h, .inr rfl⟩
  | succ fuel ih =>
      unfold Scanner.walk
      cases hnext : w.pending with
      | nil => exact ⟨trail, steps, h, .inl hnext⟩
      | cons v rest =>
          obtain ⟨trail₁, h₁⟩ := h.step hs hnext
          obtain ⟨trail₂, steps₂, h₂, hend⟩ := ih h₁
          refine ⟨trail₂, steps₂, h₂, hend.imp_right fun hsteps => ?_⟩
          omega

end Traced

/-! ### Whole walks -/

/-- What the walk comes to. -/
def finished (s : Scanner) : Walk := s.walk (s.tree.weight + 1) s.start

theorem walk_of_pending_nil (s : Scanner) {w : Walk} (h : w.pending = []) (fuel : Nat) :
    s.walk fuel w = w := by
  cases fuel with
  | zero => rfl
  | succ fuel =>
      unfold walk
      rw [h]

theorem walk_add (s : Scanner) (m n : Nat) (w : Walk) :
    s.walk (m + n) w = s.walk n (s.walk m w) := by
  induction m generalizing w with
  | zero => rw [Nat.zero_add, walk]
  | succ m ih =>
      rw [Nat.succ_add, walk, walk]
      cases hnext : w.pending with
      | nil => exact (s.walk_of_pending_nil hnext n).symm
      | cons v rest => exact ih _

/-- The walk ends with nothing left to be listed, and its trail tells what it met. -/
theorem exists_trail {s : Scanner} (hs : s.tree.WellFormed) :
    ∃ trail steps, s.Traced steps trail s.finished ∧ s.finished.pending = [] := by
  obtain ⟨trail, steps, h, hend⟩ := (Traced.start s).walk hs (s.tree.weight + 1)
  refine ⟨trail, steps, h, ?_⟩
  rcases hend with hnil | hsteps
  · exact hnil
  · exact h.pending_eq_nil hs (by omega)

end Scanner

end CallAtlas
