import CallAtlas.Proofs.Discovery.Report

/-!
# The order in which folders list their entries

A walk takes folders in the order in which they come to its stack, and this is the order in
which folders list their entries. Where every folder can be reached on one path only
(`OneWay`), nothing of it is left in the report. The walk then lists every folder that can be
reached (`Traced.mem_trail_iff`); the entries of a folder are the same in a tree with the same
content; and so the same entries are met, under the same paths and as the same things
(`Surveyed.bareMet_perm`). Sorting does the rest (`discover_eq_of_sameContent`).

Without links every folder is reached on one path only, for the path tells its place.
-/

namespace CallAtlas

namespace Scanner

/-! ### Reached folders -/

/-- The folder can be reached from the root. -/
def Reached (s : Scanner) (v : Visit) : Prop := ∃ seen, s.Way seen v

/-- Every folder can be reached on one path only. -/
def OneWay (s : Scanner) : Prop :=
  ∀ u v, s.Reached u → s.Reached v → u.place = v.place → u.names = v.names

theorem oneWay_of_not_followsLinks {s : Scanner} (hlinks : s.followsLinks = false) : s.OneWay := by
  rintro u v ⟨_, hu⟩ ⟨_, hv⟩ hplace
  rw [hu.place_eq hlinks, hv.place_eq hlinks] at hplace
  exact List.append_cancel_left hplace

section

variable {s : Scanner} (hs : s.tree.WellFormed) (hway : s.OneWay)

include hs hway

theorem Reached.eq_of_place_eq {u v : Visit} (hu : s.Reached u) (hv : s.Reached v)
    (hplace : u.place = v.place) : u = v := by
  have hnames := hway u v hu hv hplace
  obtain ⟨_, hu⟩ := hu
  obtain ⟨_, hv⟩ := hv
  have hlocated := hu.located hs
  have hlocated' := hv.located hs
  obtain ⟨names, place, listing⟩ := u
  obtain ⟨names', place', listing'⟩ := v
  cases hnames
  cases hplace
  cases hlocated.symm.trans hlocated'
  rfl

/-- When nothing is left, every folder that can be reached has been listed. -/
theorem Traced.mem_trail_iff {steps : Nat} {trail : List Visit} {w : Walk}
    (h : s.Traced steps trail w) (hnil : w.pending = []) {v : Visit} :
    v ∈ trail ↔ s.Reached v := by
  have htrail : ∀ {v}, v ∈ trail → s.Reached v := by
    intro v hv
    obtain ⟨seen, hv, _⟩ := h.way v hv
    exact ⟨seen, hv⟩
  -- A folder that was dropped from the stack stands at a listed place, so it is listed itself.
  have hlisted : ∀ {v}, s.Reached v →
      (v ∈ w.pending ++ trail ∨ (s.followsLinks = true ∧ v.place ∈ w.listed)) → v ∈ trail := by
    rintro v hv (hmem | ⟨_, hmem⟩)
    · rwa [hnil, List.nil_append] at hmem
    · rw [h.listed_eq] at hmem
      obtain ⟨u, hu, hplace⟩ := List.mem_map.mp hmem
      rwa [← (htrail hu).eq_of_place_eq hs hway hv hplace]
  refine ⟨htrail, ?_⟩
  rintro ⟨_, hv⟩
  induction hv with
  | start => exact hlisted ⟨_, .start⟩ (h.met _ (.inl rfl))
  | step hu hv hfresh ih => exact hlisted ⟨_, .step hu hv hfresh⟩ (h.met _ (.inr ⟨_, ih, hv⟩))

end

/-! ### Apart from what folders list -/

/-- A folder apart from what it lists. -/
def Visit.bare (v : Visit) : Visit := { v with listing := v.listing.map fun _ => [] }

/-- A sight apart from what a folder lists. -/
def Sight.bare : Sight → Sight
  | folder place listing => folder place (listing.map fun _ => [])
  | sight => sight

/-- A finding apart from what a folder lists. -/
def Finding.bare : Finding → Finding
  | folder v => folder v.bare
  | f => f

theorem Visit.bare_eq_iff {u v : Visit} :
    u.bare = v.bare ↔
      u.names = v.names ∧ u.place = v.place ∧ u.listing.isSome = v.listing.isSome := by
  obtain ⟨names, place, listing⟩ := u
  obtain ⟨names', place', listing'⟩ := v
  cases listing <;> cases listing' <;> simp [Visit.bare]

theorem Finding.bare_eq_folder {f : Finding} {v : Visit} (h : f.bare = folder v.bare) :
    ∃ u, f = folder u ∧ u.bare = v.bare := by
  cases f with
  | folder u => exact ⟨u, rfl, by simpa [Finding.bare] using h⟩
  | _ => cases h

theorem Finding.filterMap_map_bare (met : List Finding) :
    (met.map bare).filterMap file? = met.filterMap file? := by
  have hfile : file? ∘ bare = file? := by funext f; cases f <;> rfl
  rw [List.filterMap_map, hfile]

theorem Finding.stats_map_bare (met : List Finding) : stats (met.map bare) = stats met := by
  have hunsupported : isUnsupported ∘ bare = isUnsupported := by funext f; cases f <;> rfl
  have hignored : isIgnored ∘ bare = isIgnored := by funext f; cases f <;> rfl
  have hunreadable : isUnreadable ∘ bare = isUnreadable := by funext f; cases f <;> rfl
  simp only [stats, List.countP_map, hunsupported, hignored, hunreadable]

theorem judge_bare (s : Scanner) (names : List String) (sight : Sight) :
    (s.judge names sight.bare) = (s.judge names sight).bare := by
  cases sight with
  | passedOver => rfl
  | unreadable => rfl
  | file size =>
      dsimp only [Sight.bare, judge]
      split
      · rfl
      · split <;> rfl
  | folder place listing =>
      dsimp only [Sight.bare, judge]
      split <;> rfl
  | other =>
      dsimp only [Sight.bare, judge]
      split <;> rfl

/-! ### A tree with the same content -/

/-- The same scanner on another tree. -/
def on (s : Scanner) (t : FileTree) : Scanner := { s with tree := t }

section

variable {s : Scanner} {t : FileTree} (hsame : s.tree.SameContent t)

include hsame

theorem look_on {u u' : Visit} (hu : u'.bare = u.bare) (name : String) {node node' : FileNode}
    (hnode : node'.bare = node.bare) :
    ((s.on t).look u' name node').bare = (s.look u name node).bare := by
  obtain ⟨hnames, hplace, _⟩ := Visit.bare_eq_iff.mp hu
  rcases FileNode.eq_or_folders_of_bare_eq hnode with rfl | ⟨entries, entries', rfl, rfl⟩
  · unfold look on
    rw [hnames, hplace, hsame.resolve_eq]
    dsimp only
    split
    · rfl
    · rfl
    · split
      · rfl
      · cases s.tree.resolve (s.folder ++ u.names ++ [name]) with
        | error cause => rfl
        | ok place =>
            dsimp only
            rcases hsame.cases place with heq | ⟨_, _, hn, hn'⟩
            · rw [heq]
            · rw [hn, hn']
              rfl
    · rfl
    · rfl
  · show (Sight.ofNode (u'.place ++ [name]) (.folder entries')).bare =
      (Sight.ofNode (u.place ++ [name]) (.folder entries)).bare
    rw [hplace]
    rfl

/-- The same entry turns out to be the same thing. -/
theorem finding_on {u u' : Visit} (hu : u'.bare = u.bare) (name : String) {node node' : FileNode}
    (hnode : node'.bare = node.bare) :
    ((s.on t).finding u' (name, node')).bare = (s.finding u (name, node)).bare := by
  unfold finding
  rw [← judge_bare, ← judge_bare, look_on hsame hu name hnode, (Visit.bare_eq_iff.mp hu).1]
  rfl

/-- The walk starts at the same folder. -/
theorem bare_rootVisit_on : (s.on t).rootVisit.bare = s.rootVisit.bare := by
  have hresolve : (s.on t).tree.resolve (s.on t).folder = s.tree.resolve s.folder :=
    hsame.resolve_eq s.folder
  unfold rootVisit
  rw [hresolve]
  cases s.tree.resolve s.folder with
  | error cause => rfl
  | ok place => exact Visit.bare_eq_iff.mpr ⟨rfl, rfl, hsame.isSome_listing? place⟩

variable (hs : s.tree.WellFormed)

include hs

/-- A folder lists the same names, and the same things under them. -/
theorem exists_entry_on {u u' : Visit} (hu : u'.bare = u.bare) (hlocated : s.Located u)
    (hlocated' : (s.on t).Located u') {e : String × FileNode} (he : e ∈ u.entries) :
    ∃ node', (e.1, node') ∈ u'.entries ∧
      ((s.on t).finding u' (e.1, node')).bare = (s.finding u e).bare := by
  obtain ⟨name, node⟩ := e
  have hnode : s.tree.nodeAt? (u.place ++ [name]) = some node :=
    (hs.mem_entries_iff (hlocated.folder he)).mp he
  obtain ⟨node', hnode', hbare⟩ : ∃ node', t.nodeAt? (u.place ++ [name]) = some node' ∧
      node'.bare = node.bare := by
    have hcontent := hsame (u.place ++ [name])
    rw [hnode, Option.map_some] at hcontent
    exact Option.map_eq_some_iff.mp hcontent.symm
  rw [← (Visit.bare_eq_iff.mp hu).2.1] at hnode'
  obtain ⟨entries', hfolder, hentry⟩ := FileTree.nodeAt?_concat.mp hnode'
  have hlisting : u'.listing = some entries' :=
    hlocated'.symm.trans (FileTree.listing?_eq_some.mpr hfolder)
  refine ⟨node', ?_, finding_on hsame hu name hbare⟩
  rw [Visit.entries, hlisting]
  exact FileNode.mem_of_entry_eq_some hentry

theorem exists_reached_on (ht : t.WellFormed) {v : Visit} (hv : s.Reached v) :
    ∃ v', (s.on t).Reached v' ∧ v'.bare = v.bare := by
  have hbare := bare_rootVisit_on hsame
  have hway : ∀ {seen v}, s.Way seen v → ∃ v', (s.on t).Way seen v' ∧ v'.bare = v.bare := by
    intro seen v h
    induction h with
    | start =>
        refine ⟨(s.on t).rootVisit, ?_, hbare⟩
        rw [← (Visit.bare_eq_iff.mp hbare).2.1]
        exact .start
    | step hu hv hfresh ih =>
        rename_i seen u v
        obtain ⟨u', hu', hubare⟩ := ih
        obtain ⟨e, he, hfinding⟩ := mem_children.mp hv
        obtain ⟨node', hmem, hfinding'⟩ := exists_entry_on hsame hs hubare
          (hu.located hs) (hu'.located ht) he
        rw [hfinding] at hfinding'
        obtain ⟨v', hv', hvbare⟩ := Finding.bare_eq_folder hfinding'
        refine ⟨v', ?_, hvbare⟩
        rw [← (Visit.bare_eq_iff.mp hvbare).2.1] at hfresh ⊢
        exact .step hu' (mem_children.mpr ⟨_, hmem, hv'⟩) hfresh
  obtain ⟨seen, hv⟩ := hv
  obtain ⟨v', hv', hvbare⟩ := hway hv
  exact ⟨v', ⟨seen, hv'⟩, hvbare⟩

end

/-- Whether a folder can be reached on two paths does not depend on the order. -/
theorem OneWay.on {s : Scanner} {t : FileTree} (hway : s.OneWay) (hsame : s.tree.SameContent t)
    (hs : s.tree.WellFormed) (ht : t.WellFormed) : (s.on t).OneWay := by
  intro u' v' hu' hv' hplace
  obtain ⟨u, hu, hubare⟩ := exists_reached_on (s := s.on t) hsame.symm ht hs hu'
  obtain ⟨v, hv, hvbare⟩ := exists_reached_on (s := s.on t) hsame.symm ht hs hv'
  obtain ⟨hunames, huplace, _⟩ := Visit.bare_eq_iff.mp hubare
  obtain ⟨hvnames, hvplace, _⟩ := Visit.bare_eq_iff.mp hvbare
  rw [← hunames, ← hvnames]
  refine hway u v hu hv ?_
  rw [huplace, hvplace, hplace]

/-! ### The same report -/

/-- The walk through a tree has listed these folders, and no other folder can be reached. -/
structure Surveyed (s : Scanner) (trail : List Visit) : Prop where
  wellFormed : s.tree.WellFormed
  traced : ∃ steps, s.Traced steps trail s.finished
  mem_iff : ∀ v, v ∈ trail ↔ s.Reached v

theorem OneWay.exists_surveyed {s : Scanner} (hway : s.OneWay) (hs : s.tree.WellFormed) :
    ∃ trail, s.Surveyed trail := by
  obtain ⟨trail, steps, h, hnil⟩ := exists_trail hs
  exact ⟨trail, hs, ⟨steps, h⟩, fun _ => h.mem_trail_iff hs hway hnil⟩

namespace Surveyed

variable {s : Scanner} {trail : List Visit}

theorem located (h : s.Surveyed trail) {v : Visit} (hv : v ∈ trail) : s.Located v := by
  obtain ⟨_, hway⟩ := (h.mem_iff v).mp hv
  exact hway.located h.wellFormed

theorem nodup_names (h : s.Surveyed trail) : (trail.map (·.names)).Nodup := by
  obtain ⟨_, htraced⟩ := h.traced
  have hnodup := htraced.names_nodup
  rw [List.map_append, List.nodup_append] at hnodup
  exact hnodup.2.1

theorem nodup_met (h : s.Surveyed trail) : ((s.met trail).map (·.1)).Nodup := by
  obtain ⟨_, htraced⟩ := h.traced
  exact htraced.nodup_met h.wellFormed

theorem exists_met_on {t : FileTree} {trail' : List Visit} (h : s.Surveyed trail)
    (h' : (s.on t).Surveyed trail') (hsame : s.tree.SameContent t) {names : List String}
    {f : Finding} (hmem : (names, f) ∈ s.met trail) :
    ∃ f', (names, f') ∈ (s.on t).met trail' ∧ f'.bare = f.bare := by
  obtain ⟨v, hv, e, he, rfl, rfl⟩ := mem_met.mp hmem
  obtain ⟨v', hreached', hvbare⟩ :=
    exists_reached_on hsame h.wellFormed h'.wellFormed ((h.mem_iff v).mp hv)
  have hv' := (h'.mem_iff v').mpr hreached'
  obtain ⟨node', hentry, hfinding⟩ := exists_entry_on hsame h.wellFormed hvbare (h.located hv)
    (h'.located hv') he
  refine ⟨_, mem_met.mpr ⟨v', hv', _, hentry, ?_, rfl⟩, hfinding⟩
  rw [(Visit.bare_eq_iff.mp hvbare).1]

theorem nodup_bare (h : s.Surveyed trail) : (trail.map Visit.bare).Nodup := by
  refine List.Nodup.of_map (·.names) ?_
  rw [List.map_map]
  exact h.nodup_names

/-- In a tree with the same content the same folders are listed. -/
theorem bare_perm {t : FileTree} {trail' : List Visit} (h : s.Surveyed trail)
    (h' : (s.on t).Surveyed trail') (hsame : s.tree.SameContent t) :
    (trail.map Visit.bare).Perm (trail'.map Visit.bare) := by
  rw [List.perm_ext_iff_of_nodup h.nodup_bare h'.nodup_bare]
  intro u
  rw [List.mem_map, List.mem_map]
  constructor
  · rintro ⟨v, hv, rfl⟩
    obtain ⟨v', hv', hbare⟩ :=
      exists_reached_on hsame h.wellFormed h'.wellFormed ((h.mem_iff v).mp hv)
    exact ⟨v', (h'.mem_iff v').mpr hv', hbare⟩
  · rintro ⟨v', hv', rfl⟩
    obtain ⟨v, hv, hbare⟩ := exists_reached_on (s := s.on t) hsame.symm h'.wellFormed h.wellFormed
      ((h'.mem_iff v').mp hv')
    exact ⟨v, (h.mem_iff v).mpr hv, hbare⟩

end Surveyed

/-- What is met, apart from what folders list. -/
def bareMet (s : Scanner) (trail : List Visit) : List (List String × Finding) :=
  (s.met trail).map (Prod.map id Finding.bare)

theorem mem_bareMet {s : Scanner} {trail : List Visit} {names : List String} {f : Finding} :
    (names, f) ∈ s.bareMet trail ↔ ∃ f', (names, f') ∈ s.met trail ∧ f'.bare = f := by
  unfold bareMet
  rw [List.mem_map]
  constructor
  · rintro ⟨⟨names', f'⟩, hmem, heq⟩
    cases heq
    exact ⟨f', hmem, rfl⟩
  · rintro ⟨f', hmem, rfl⟩
    exact ⟨_, hmem, rfl⟩

namespace Surveyed

variable {s : Scanner} {trail : List Visit}

theorem nodup_bareMet (h : s.Surveyed trail) : (s.bareMet trail).Nodup := by
  refine List.Nodup.of_map (·.1) ?_
  simpa [bareMet, Function.comp_def] using h.nodup_met

variable {t : FileTree} {trail' : List Visit} (h : s.Surveyed trail)
  (h' : (s.on t).Surveyed trail') (hsame : s.tree.SameContent t)

include h h' hsame

/-- In a tree with the same content the same entries are met, as the same things. -/
theorem bareMet_perm : (s.bareMet trail).Perm ((s.on t).bareMet trail') := by
  rw [List.perm_ext_iff_of_nodup h.nodup_bareMet h'.nodup_bareMet]
  rintro ⟨names, f⟩
  rw [mem_bareMet, mem_bareMet]
  constructor
  · rintro ⟨f', hmem, rfl⟩
    exact h.exists_met_on h' hsame hmem
  · rintro ⟨f', hmem, rfl⟩
    exact h'.exists_met_on (t := s.tree) h hsame.symm hmem

/-- All in all the same is found. -/
theorem map_bare_findings_perm :
    ((trail.flatMap s.findings).map Finding.bare).Perm
      ((trail'.flatMap (s.on t).findings).map Finding.bare) := by
  have hmet : (((s.met trail).map (·.2)).map Finding.bare).Perm
      ((((s.on t).met trail').map (·.2)).map Finding.bare) := by
    simpa [bareMet, Function.comp_def] using (h.bareMet_perm h' hsame).map (·.2)
  have hunlisted : trail.countP (·.listing.isNone) = trail'.countP (·.listing.isNone) := by
    have hcount := (h.bare_perm h' hsame).countP_eq (·.listing.isNone)
    simpa [List.countP_map, Function.comp_def, Visit.bare] using hcount
  refine ((s.findings_perm trail).map _).trans
    (.trans ?_ (((s.on t).findings_perm trail').map _).symm)
  rw [List.map_append, List.map_append, hunlisted]
  exact hmet.append_right _

end Surveyed

/-- **The order of entries is not seen** where every folder is reached on one path only. -/
theorem discover_eq_of_sameContent {s : Scanner} {t : FileTree} (hsame : s.tree.SameContent t)
    (hs : s.tree.WellFormed) (ht : t.WellFormed) (hway : s.OneWay) :
    (s.on t).discover = s.discover := by
  obtain ⟨trail, hsurveyed⟩ := hway.exists_surveyed hs
  obtain ⟨trail', hsurveyed'⟩ := (hway.on hsame hs ht).exists_surveyed ht
  have hfound := hsurveyed.map_bare_findings_perm hsurveyed' hsame
  obtain ⟨_, h⟩ := hsurveyed.traced
  obtain ⟨_, h'⟩ := hsurveyed'.traced
  have hfiles : (s.on t).discover.1 = s.discover.1 := by
    have hperm : (s.on t).discover.1.Perm s.discover.1 := by
      refine h'.discover_perm.trans (List.Perm.trans ?_ h.discover_perm.symm)
      have hfile := hfound.symm.filterMap Finding.file?
      rwa [Finding.filterMap_map_bare, Finding.filterMap_map_bare] at hfile
    refine hperm.eq_of_pairwise ?_ (h'.pairwise_discover ht) (h.pairwise_discover hs)
    intro a b _ _ hab hba
    exact absurd hab (lt_asymm hba)
  have hstats : Finding.stats (trail'.flatMap (s.on t).findings) =
      Finding.stats (trail.flatMap s.findings) := by
    rw [← Finding.stats_map_bare, ← Finding.stats_map_bare (trail.flatMap s.findings)]
    exact Finding.stats_eq_of_perm hfound.symm
  refine Prod.ext hfiles ?_
  rw [h'.discover_stats, h.discover_stats, hfiles, hstats]

end Scanner

end CallAtlas
