import CallAtlas.Proofs.Discovery.ListingOrder

/-!
# Discovery where links are followed

A link may lead to a file, to a folder anywhere in the tree, to a folder that it stands in, to
itself or to nothing. The walk ends all the same, and it lists no folder twice, because it keeps
the places of the folders that it has listed and a place has no link on it.

What is reported follows from the content of the tree where every folder can be reached on one
path only (`discover_followsLinks`). A link to a folder above does no harm to this, since no way
passes a place twice. A folder that can be reached on two paths is listed under the one that
comes from the stack first, and this is the one that its folder lists last: there the order of
entries decides which files are reported (`discover_sees_order`).
-/

namespace CallAtlas.Scanner

/-- A property of the root that is handed on to every folder at another place holds of all
folders that can be reached. -/
theorem Reached.induct {s : Scanner} {motive : Visit → Prop} (hroot : motive s.rootVisit)
    (hstep : ∀ u, motive u → ∀ v ∈ s.children u, v.place ≠ s.rootVisit.place → motive v) {v : Visit}
    (h : s.Reached v) : motive v := by
  obtain ⟨seen, hway⟩ := h
  induction hway with
  | start => exact hroot
  | step hu hv hfresh ih =>
      exact hstep _ ih _ hv fun hplace => hfresh (hplace ▸ hu.root_mem)

/-- The report is on what is found in these folders of the tree, and no place is listed twice. -/
structure ListsOnce (s : Scanner) (trail : List Visit) : Prop where
  listed_eq : s.finished.listed = trail.map (·.place)
  nodup : (trail.map (·.place)).Nodup
  located : ∀ v ∈ trail, s.Located v
  files_perm : s.discover.1.Perm ((trail.flatMap s.findings).filterMap Finding.file?)
  stats_eq : s.discover.2 =
    { Finding.stats (trail.flatMap s.findings) with filesFound := s.discover.1.length }

theorem exists_listsOnce {s : Scanner} (hs : s.tree.WellFormed) : ∃ trail, s.ListsOnce trail := by
  obtain ⟨trail, steps, h, _⟩ := exists_trail hs
  refine ⟨trail, h.listed_eq, h.places_nodup, ?_, h.discover_perm, h.discover_stats⟩
  exact fun v hv => h.located hs v (List.mem_append_right _ hv)

/-- **Discovery with links.** The walk ends, with nothing left to be listed, and further steps
would change nothing. The report is on what some folders of the tree hold, and none of them is
listed twice. Where every folder can be reached on one path only, the report does not depend on
the order in which folders list their entries. -/
theorem discover_followsLinks (s : Scanner) (hs : s.tree.WellFormed) :
    (s.finished.pending = [] ∧
      ∀ more, s.walk (s.tree.weight + 1 + more) s.start = s.finished) ∧
    (∃ trail, s.ListsOnce trail) ∧
    (s.OneWay → ∀ t : FileTree, t.WellFormed → s.tree.SameContent t →
      (s.on t).discover = s.discover) := by
  obtain ⟨_, _, _, hnil⟩ := exists_trail hs
  refine ⟨⟨hnil, fun more => ?_⟩, exists_listsOnce hs, fun hway t ht hsame => ?_⟩
  · rw [walk_add]
    exact s.walk_of_pending_nil hnil more
  · exact discover_eq_of_sameContent hsame hs ht hway

/-- A folder with a link to the folder above, a link to itself and a link to nothing. -/
def looped : Scanner where
  tree :=
    { entries :=
        [("a", .folder [("x.ts", .file .empty), ("up", .link ".."), ("self", .link "self"),
          ("gone", .link "../b")])] }
  folder := []
  root := "/code"
  policy := { root := "/code", rules := [] }
  followsLinks := true
  groupDepth := 1
  skipped := []

/-- Its root. -/
def loopedRoot : Visit := { names := [], place := [], listing := some looped.tree.entries }

/-- The folder in it. -/
def loopedFolder : Visit where
  names := ["a"]
  place := ["a"]
  listing :=
    some
      [("x.ts", .file .empty), ("up", .link ".."), ("self", .link "self"), ("gone", .link "../b")]

theorem oneWay_looped : looped.OneWay := by
  intro u v hu hv hplace
  have hreached : ∀ {v}, looped.Reached v → v = loopedRoot ∨ v = loopedFolder := by
    intro v hv
    refine hv.induct (motive := fun v => v = loopedRoot ∨ v = loopedFolder) (.inl rfl) ?_
    rintro u (rfl | rfl) v hv hplace
    · have hchildren : looped.children loopedRoot = [loopedFolder] := rfl
      rw [hchildren] at hv
      exact .inr (List.mem_singleton.mp hv)
    · have hplaces : (looped.children loopedFolder).map (·.place) = [[]] := by decide +kernel
      have hmem := List.mem_map_of_mem (f := (·.place)) hv
      rw [hplaces] at hmem
      exact absurd (List.mem_singleton.mp hmem) hplace
  rcases hreached hu with rfl | rfl <;> rcases hreached hv with rfl | rfl
  · rfl
  · cases hplace
  · cases hplace
  · rfl

theorem discover_followsLinks_looped :
    (looped.followsLinks = true ∧ looped.tree.WellFormed ∧ looped.OneWay) ∧
    (looped.finished.pending = [] ∧
      ∀ more, looped.walk (looped.tree.weight + 1 + more) looped.start = looped.finished) ∧
    (∃ trail, looped.ListsOnce trail) ∧
    (∀ t : FileTree, t.WellFormed → looped.tree.SameContent t →
      (looped.on t).discover = looped.discover) ∧
    looped.discover =
      ([{ path := "a/x.ts", group := "a", language := .typeScript, size := 0 }],
        { filesFound := 1, entriesUnreadable := 2 }) := by
  have hwell : looped.tree.WellFormed := FileTree.wellFormed_of_folders (by decide +kernel)
  obtain ⟨hends, hlisted, horder⟩ := discover_followsLinks looped hwell
  exact ⟨⟨rfl, hwell, oneWay_looped⟩, hends, hlisted, horder oneWay_looped, by decide +kernel⟩

/-- A folder, and beside it a link to it. -/
def aliased : Scanner where
  tree := { entries := [("a", .folder [("x.ts", .file .empty)]), ("b", .link "a")] }
  folder := []
  root := "/code"
  policy := { root := "/code", rules := [] }
  followsLinks := true
  groupDepth := 1
  skipped := []

/-- **The order of entries is seen** where a folder can be reached on two paths: listed in one
order its file is reported under one path, and in the other order under the other. -/
theorem discover_sees_order :
    let t : FileTree := ⟨aliased.tree.entries.reverse⟩
    aliased.followsLinks = true ∧ aliased.tree.WellFormed ∧ t.WellFormed ∧
      aliased.tree.SameContent t ∧
      aliased.discover.1.map (·.path) = ["b/x.ts"] ∧
      (aliased.on t).discover.1.map (·.path) = ["a/x.ts"] := by
  refine ⟨rfl, FileTree.wellFormed_of_folders (by decide +kernel),
    FileTree.wellFormed_of_folders (by decide +kernel), ?_, by decide +kernel, by decide +kernel⟩
  exact FileTree.sameContent_of_perm (List.reverse_perm _).symm (by decide)

end CallAtlas.Scanner
