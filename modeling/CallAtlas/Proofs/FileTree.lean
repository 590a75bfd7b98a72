import Mathlib.Algebra.Order.BigOperators.Group.List
import Mathlib.Algebra.Order.Ring.Nat
import Mathlib.Data.List.Induction
import Mathlib.Data.List.Nodup
import Mathlib.Data.List.Perm.Subperm
import CallAtlas.FileTree
import CallAtlas.Proofs.Path

/-!
# File trees

A tree is **well-formed** if every folder lists distinct names. Then an entry of a folder and
the node at the place of that entry are the same thing, and a place tells its node
(`nodeAt?_concat`). Every tree that is put together path by path is well-formed
(`WellFormed.put`).

The order in which folders list their entries is part of a tree, and two trees that differ in
nothing else have **the same content**: at every place there is the same entry, or a folder in
both. Looking up a path sees no more than that (`SameContent.resolve_eq`).
-/

namespace CallAtlas

/-- The entries of a folder have names that differ from each other. -/
structure ProperEntries (entries : List (String × FileNode)) : Prop where
  nodup : (entries.map (·.1)).Nodup
  isName : ∀ e ∈ entries, Path.IsName e.1

instance (entries : List (String × FileNode)) : Decidable (ProperEntries entries) :=
  decidable_of_iff ((entries.map (·.1)).Nodup ∧ ∀ e ∈ entries, Path.IsName e.1)
    ⟨fun h => ⟨h.1, h.2⟩, fun h => ⟨h.nodup, h.isName⟩⟩

namespace FileNode

/-- Is it a folder, be it a closed one? -/
def isFolder : FileNode → Bool
  | folder _ => true
  | closed => true
  | _ => false

/-- Is it a link? -/
def isLink : FileNode → Bool
  | link _ => true
  | _ => false

/-- Is it an entry that gives an error? -/
def isBroken : FileNode → Bool
  | broken _ _ => true
  | _ => false

/-- The node without what a folder lists. -/
def bare : FileNode → FileNode
  | folder _ => folder []
  | node => node

/-- Only what folders list is left out. -/
theorem eq_or_folders_of_bare_eq {node node' : FileNode} (h : node'.bare = node.bare) :
    node' = node ∨ ∃ entries entries', node = folder entries ∧ node' = folder entries' := by
  cases node' with
  | folder entries' =>
      cases node with
      | folder entries => exact .inr ⟨entries, entries', rfl, rfl⟩
      | _ => cases h
  | _ =>
      left
      cases node with
      | folder entries => cases h
      | _ => exact h

theorem mem_of_entry_eq_some {entries : List (String × FileNode)} {name : String} {node : FileNode}
    (h : entry? entries name = some node) : (name, node) ∈ entries := by
  obtain ⟨⟨name', _⟩, hfind, rfl⟩ := Option.map_eq_some_iff.mp h
  obtain rfl : name' = name := by simpa using List.find?_some hfind
  exact List.mem_of_find?_eq_some hfind

/-- Where names are distinct, the entry found under a name is the only one. -/
theorem entry?_eq_some {entries : List (String × FileNode)} (h : (entries.map (·.1)).Nodup)
    {name : String} {node : FileNode} :
    entry? entries name = some node ↔ (name, node) ∈ entries := by
  refine ⟨mem_of_entry_eq_some, fun hmem => ?_⟩
  obtain ⟨e, he⟩ : ∃ e, entries.find? (·.1 == name) = some e :=
    Option.isSome_iff_exists.mp (List.find?_isSome.mpr ⟨_, hmem, by simp⟩)
  have hname : e.1 = name := by simpa using List.find?_some he
  obtain rfl := List.inj_on_of_nodup_map h (List.mem_of_find?_eq_some he) hmem hname
  unfold entry?
  rw [he]
  rfl

end FileNode

namespace FileTree

variable {t t' : FileTree}

/-! ### Places -/

/-- Below a folder, a place goes on as in a tree of its own. -/
theorem nodeAt?_append {place : List String} {entries : List (String × FileNode)}
    (h : t.nodeAt? place = some (.folder entries)) (names : List String) :
    t.nodeAt? (place ++ names) = (⟨entries⟩ : FileTree).nodeAt? names := by
  unfold nodeAt? at h ⊢
  rw [List.foldl_append, h]

theorem nodeAt?_concat {place : List String} {name : String} {node : FileNode} :
    t.nodeAt? (place ++ [name]) = some node ↔
      ∃ entries, t.nodeAt? place = some (.folder entries) ∧
        FileNode.entry? entries name = some node := by
  unfold nodeAt?
  rw [List.foldl_append, List.foldl_cons, List.foldl_nil]
  generalize List.foldl _ _ place = found
  cases found with
  | none => simp
  | some node' => cases node' <;> simp

theorem listing?_eq_some {place : List String} {entries : List (String × FileNode)} :
    t.listing? place = some entries ↔ t.nodeAt? place = some (.folder entries) := by
  unfold listing?
  cases t.nodeAt? place with
  | none => simp
  | some node => cases node <;> simp

/-- Only folders stand above a place that holds something. -/
theorem exists_folder_of_append {place names : List String} {node : FileNode} (hnames : names ≠ [])
    (h : t.nodeAt? (place ++ names) = some node) :
    ∃ entries, t.nodeAt? place = some (.folder entries) := by
  induction names using List.reverseRecOn generalizing node with
  | nil => exact absurd rfl hnames
  | append_singleton names name ih =>
      rw [← List.append_assoc] at h
      obtain ⟨entries, hfolder, _⟩ := nodeAt?_concat.mp h
      by_cases hnil : names = []
      · subst hnil
        exact ⟨entries, by simpa using hfolder⟩
      · exact ih hnil hfolder

/-- The way down to a folder starts with one of the top folder. -/
theorem exists_folder_of_cons {name : String} {names : List String}
    {sub : List (String × FileNode)} (h : t.nodeAt? (name :: names) = some (.folder sub)) :
    ∃ inner, t.nodeAt? [name] = some (.folder inner) ∧
      (⟨inner⟩ : FileTree).nodeAt? names = some (.folder sub) := by
  by_cases hnames : names = []
  · subst hnames
    exact ⟨sub, h, rfl⟩
  · rw [← List.singleton_append] at h
    obtain ⟨inner, hinner⟩ := exists_folder_of_append hnames h
    rw [nodeAt?_append hinner] at h
    exact ⟨inner, hinner, h⟩

/-- Every folder lists distinct names. -/
def WellFormed (t : FileTree) : Prop :=
  ∀ place entries, t.nodeAt? place = some (.folder entries) → ProperEntries entries

theorem WellFormed.below (ht : t.WellFormed) {place : List String}
    {entries : List (String × FileNode)} (h : t.nodeAt? place = some (.folder entries)) :
    (⟨entries⟩ : FileTree).WellFormed := by
  intro names entries' h'
  rw [← nodeAt?_append h] at h'
  exact ht _ _ h'

/-- What a folder lists is what stands at the places below it. -/
theorem WellFormed.mem_entries_iff (ht : t.WellFormed) {place : List String}
    {entries : List (String × FileNode)} (h : t.nodeAt? place = some (.folder entries))
    {name : String} {node : FileNode} :
    (name, node) ∈ entries ↔ t.nodeAt? (place ++ [name]) = some node := by
  rw [← FileNode.entry?_eq_some (ht _ _ h).nodup, nodeAt?_concat]
  constructor
  · exact fun hentry => ⟨entries, h, hentry⟩
  · rintro ⟨entries', h', hentry⟩
    cases h.symm.trans h'
    exact hentry

/-- The way down to a folder can be gone name by name. -/
theorem WellFormed.advance_eq (ht : t.WellFormed) {place names : List String}
    {entries : List (String × FileNode)}
    (h : t.nodeAt? (place ++ names) = some (.folder entries)) :
    t.advance place names = .arrived (place ++ names) := by
  induction names generalizing place with
  | nil => rw [advance, List.append_nil]
  | cons name names ih =>
      rw [← List.singleton_append, ← List.append_assoc] at h
      obtain ⟨sub, hsub⟩ : ∃ sub, t.nodeAt? (place ++ [name]) = some (.folder sub) := by
        by_cases hnames : names = []
        · exact ⟨entries, by simpa [hnames] using h⟩
        · exact exists_folder_of_append hnames h
      have hname : name ≠ ".." := by
        obtain ⟨above, habove, hentry⟩ := nodeAt?_concat.mp hsub
        have hproper := (ht _ _ habove).isName _ (FileNode.mem_of_entry_eq_some hentry)
        exact hproper.ne_dots
      rw [advance, if_neg hname, hsub]
      dsimp only
      rw [ih h, List.append_assoc, List.singleton_append]

/-- The place of a folder leads to it. -/
theorem WellFormed.resolve_eq (ht : t.WellFormed) {place : List String}
    {entries : List (String × FileNode)} (h : t.nodeAt? place = some (.folder entries)) :
    t.resolve place = .ok place := by
  have hadvance : t.advance [] place = .arrived place :=
    ht.advance_eq (show t.nodeAt? ([] ++ place) = _ from h)
  unfold resolve resolveFrom
  rw [hadvance]

/-! ### Putting trees together -/

end FileTree

namespace FileNode

variable {entries : List (String × FileNode)} {name : String} {node : FileNode}

/-- What a folder lists is well-formed if it does so properly, and so does every folder in
it. -/
theorem wellFormed_iff :
    (⟨entries⟩ : FileTree).WellFormed ↔
      ProperEntries entries ∧
        ∀ name sub, (name, folder sub) ∈ entries → (⟨sub⟩ : FileTree).WellFormed := by
  constructor
  · intro h
    have hproper := h [] entries rfl
    refine ⟨hproper, fun name sub hmem => ?_⟩
    have hsub : (⟨entries⟩ : FileTree).nodeAt? [name] = some (folder sub) :=
      (entry?_eq_some hproper.nodup).mpr hmem
    exact h.below hsub
  · rintro ⟨hproper, hsub⟩ place sub h
    cases place with
    | nil =>
        cases h
        exact hproper
    | cons name place =>
        obtain ⟨inner, hinner, h⟩ := FileTree.exists_folder_of_cons h
        exact hsub name inner (mem_of_entry_eq_some hinner) place sub h

theorem map_fst_setEntry_of_any (h : entries.any (·.1 == name) = true) :
    (setEntry entries name node).map (·.1) = entries.map (·.1) := by
  unfold setEntry
  rw [if_pos h, List.map_map]
  refine List.map_congr_left fun e _ => ?_
  dsimp only [Function.comp_apply]
  split
  · rename_i heq
    exact (eq_of_beq heq).symm
  · rfl

theorem mem_setEntry {e : String × FileNode} (h : e ∈ setEntry entries name node) :
    e = (name, node) ∨ e ∈ entries := by
  unfold setEntry at h
  split at h
  · obtain ⟨e', he', rfl⟩ := List.mem_map.mp h
    split
    · exact .inl rfl
    · exact .inr he'
  · rcases List.mem_append.mp h with h | h
    · exact .inr h
    · exact .inl (List.mem_singleton.mp h)

theorem properEntries_setEntry (h : ProperEntries entries) (hname : Path.IsName name) :
    ProperEntries (setEntry entries name node) where
  nodup := by
    by_cases hany : entries.any (·.1 == name) = true
    · rw [map_fst_setEntry_of_any hany]
      exact h.nodup
    · unfold setEntry
      rw [if_neg hany, List.map_append, List.map_singleton, List.nodup_append]
      refine ⟨h.nodup, List.nodup_singleton name, ?_⟩
      rintro a ha b hb rfl
      obtain ⟨e, he, rfl⟩ := List.mem_map.mp ha
      exact hany (List.any_eq_true.mpr ⟨e, he, by simpa using hb⟩)
  isName := by
    intro e he
    rcases mem_setEntry he with rfl | he
    · exact hname
    · exact h.isName e he

theorem wellFormed_setEntry (h : (⟨entries⟩ : FileTree).WellFormed) (hname : Path.IsName name)
    (hnode : ∀ sub, node = folder sub → (⟨sub⟩ : FileTree).WellFormed) :
    (⟨setEntry entries name node⟩ : FileTree).WellFormed := by
  obtain ⟨hproper, hsub⟩ := wellFormed_iff.mp h
  refine wellFormed_iff.mpr ⟨properEntries_setEntry hproper hname, fun n sub hmem => ?_⟩
  rcases mem_setEntry hmem with heq | hmem
  · cases heq
    exact hnode sub rfl
  · exact hsub n sub hmem

theorem wellFormed_nil : (⟨[]⟩ : FileTree).WellFormed :=
  wellFormed_iff.mpr ⟨⟨List.nodup_nil, by simp⟩, by simp⟩

/-- Putting a node somewhere keeps a folder well-formed. -/
theorem wellFormed_put (hnode : ∀ sub, node = folder sub → (⟨sub⟩ : FileTree).WellFormed)
    {names : List String} (hnames : ∀ name ∈ names, Path.IsName name)
    (h : (⟨entries⟩ : FileTree).WellFormed) :
    (⟨node.put names entries⟩ : FileTree).WellFormed := by
  have hinner : ∀ {entries : List (String × FileNode)} {name : String} {sub},
      (⟨entries⟩ : FileTree).WellFormed → entry? entries name = some (.folder sub) →
        (⟨sub⟩ : FileTree).WellFormed :=
    fun h hentry => (wellFormed_iff.mp h).2 _ _ (mem_of_entry_eq_some hentry)
  fun_induction put node names entries with
  | case1 => exact h
  | case2 name entries sub _ _ hentry =>
      -- A folder that is there already stays.
      refine wellFormed_setEntry h (hnames name List.mem_cons_self) ?_
      rintro _ ⟨⟩
      exact hinner h hentry
  | case3 name entries => exact wellFormed_setEntry h (hnames name List.mem_cons_self) hnode
  | case4 name names entries _ sub hentry ih =>
      refine wellFormed_setEntry h (hnames name List.mem_cons_self) ?_
      rintro _ ⟨⟩
      exact ih (fun n hn => hnames n (List.mem_cons_of_mem _ hn)) (hinner h hentry)
  | case5 name names entries _ _ ih =>
      refine wellFormed_setEntry h (hnames name List.mem_cons_self) ?_
      rintro _ ⟨⟩
      exact ih (fun n hn => hnames n (List.mem_cons_of_mem _ hn)) wellFormed_nil

end FileNode

namespace FileTree

variable {t t' : FileTree}

/-- A path that leads nowhere upwards can be put into a tree. -/
theorem WellFormed.put (ht : t.WellFormed) {path : String} (hpath : ".." ∉ Path.segments path)
    {node : FileNode} (hnode : ∀ sub, node = .folder sub → (⟨sub⟩ : FileTree).WellFormed) :
    (t.put path node).WellFormed := by
  refine FileNode.wellFormed_put hnode (fun name hname => ?_) ht
  refine Path.isName_of_mem_segments hname fun hdots => ?_
  exact hpath (hdots ▸ hname)

/-- A file or a link can be put anywhere. -/
theorem WellFormed.put_leaf (ht : t.WellFormed) {path : String} (hpath : ".." ∉ Path.segments path)
    {node : FileNode} (hnode : node.isFolder = false) : (t.put path node).WellFormed := by
  refine ht.put hpath ?_
  rintro sub rfl
  cases hnode

end FileTree

/-! ### The folders of a tree -/

namespace FileNode

mutual

/-- The folders at and inside a node that stands at a place, with their own places and what
they list. -/
def folders (place : List String) : FileNode → List (List String × List (String × FileNode))
  | folder entries => (place, entries) :: foldersAll place entries
  | _ => []

/-- The folders inside a folder at a place. -/
def foldersAll (place : List String) :
    List (String × FileNode) → List (List String × List (String × FileNode))
  | [] => []
  | (name, node) :: rest => node.folders (place ++ [name]) ++ foldersAll place rest

end

mutual

/-- Every entry is listed by one folder. -/
theorem sum_folders (place : List String) (node : FileNode) :
    ((node.folders place).map (·.2.length)).sum = node.weight := by
  cases node with
  | folder entries =>
      rw [folders, weight, List.map_cons, List.sum_cons]
      exact sum_foldersAll place entries
  | _ => simp only [folders, weight, List.map_nil, List.sum_nil]

theorem sum_foldersAll (place : List String) (entries : List (String × FileNode)) :
    entries.length + ((foldersAll place entries).map (·.2.length)).sum = weightAll entries := by
  match entries with
  | [] => rfl
  | (name, node) :: rest =>
      have hnode := sum_folders (place ++ [name]) node
      have hrest := sum_foldersAll place rest
      rw [foldersAll, weightAll, List.map_append, List.sum_append, List.length_cons]
      omega

end

theorem mem_foldersAll {place : List String} {entries : List (String × FileNode)} {name : String}
    {node : FileNode} (hmem : (name, node) ∈ entries)
    {f : List String × List (String × FileNode)} (hf : f ∈ node.folders (place ++ [name])) :
    f ∈ foldersAll place entries := by
  induction entries with
  | nil => cases hmem
  | cons e rest ih =>
      obtain ⟨n, node'⟩ := e
      rw [foldersAll, List.mem_append]
      rcases List.mem_cons.mp hmem with heq | hmem
      · cases heq
        exact .inl hf
      · exact .inr (ih hmem)

theorem mem_folders {entries sub : List (String × FileNode)} {names : List String}
    (h : (⟨entries⟩ : FileTree).nodeAt? names = some (folder sub)) (place : List String) :
    (place ++ names, sub) ∈ (folder entries).folders place := by
  induction names generalizing entries place with
  | nil =>
      cases h
      rw [List.append_nil, folders]
      exact List.mem_cons_self
  | cons name names ih =>
      obtain ⟨inner, hinner, h⟩ := FileTree.exists_folder_of_cons h
      have hfound := ih h (place ++ [name])
      rw [List.append_assoc, List.singleton_append] at hfound
      rw [folders]
      exact List.mem_cons_of_mem _ (mem_foldersAll (mem_of_entry_eq_some hinner) hfound)

end FileNode

namespace FileTree

variable {t t' : FileTree}

/-- Whether a tree is well-formed can be seen by going through its folders. -/
theorem wellFormed_of_folders
    (h : ∀ f ∈ (FileNode.folder t.entries).folders [], ProperEntries f.2) : t.WellFormed :=
  fun _ _ hnode => h _ (FileNode.mem_folders hnode [])

/-- Folders at different places list no more than all entries of the tree. -/
theorem sum_length_le_weight {folders : List (List String × List (String × FileNode))}
    (hnodup : (folders.map (·.1)).Nodup)
    (h : ∀ f ∈ folders, t.nodeAt? f.1 = some (.folder f.2)) :
    (folders.map (·.2.length)).sum ≤ t.weight := by
  have hsubset : folders ⊆ (FileNode.folder t.entries).folders [] := by
    intro f hf
    exact FileNode.mem_folders (h f hf) []
  obtain ⟨found, hperm, hsub⟩ := hnodup.of_map.subperm hsubset
  calc (folders.map (·.2.length)).sum
      = (found.map (·.2.length)).sum := ((hperm.map _).sum_eq).symm
    _ ≤ (((FileNode.folder t.entries).folders []).map (·.2.length)).sum :=
        (hsub.map _).sum_le_sum fun _ _ => Nat.zero_le _
    _ = t.weight := FileNode.sum_folders [] (.folder t.entries)

/-- The folders among some places, with what they list. -/
def foldersAmong (t : FileTree) (places : List (List String)) :
    List (List String × List (String × FileNode)) :=
  places.filterMap fun place => (t.listing? place).map (place, ·)

theorem map_fst_foldersAmong (t : FileTree) (places : List (List String)) :
    (t.foldersAmong places).map (·.1) = places.filter fun place => (t.listing? place).isSome := by
  unfold foldersAmong
  rw [List.map_filterMap, ← List.filterMap_eq_filter]
  refine List.filterMap_congr fun place _ => ?_
  cases hlisting : t.listing? place <;> simp [Option.guard, hlisting]

theorem sum_foldersAmong (t : FileTree) (places : List (List String)) :
    ((t.foldersAmong places).map (·.2.length)).sum =
      (places.map fun place => ((t.listing? place).getD []).length).sum := by
  unfold foldersAmong
  induction places with
  | nil => rfl
  | cons place places ih =>
      rw [List.map_cons, List.sum_cons, ← ih, List.filterMap_cons]
      cases t.listing? place with
      | none => simp
      | some entries => simp

/-- What different places list is no more than all entries of the tree. -/
theorem sum_listing_le_weight {places : List (List String)} (hnodup : places.Nodup) :
    (places.map fun place => ((t.listing? place).getD []).length).sum ≤ t.weight := by
  rw [← t.sum_foldersAmong]
  refine sum_length_le_weight ?_ fun f hf => ?_
  · rw [map_fst_foldersAmong]
    exact hnodup.filter _
  · obtain ⟨place, _, hfound⟩ := List.mem_filterMap.mp hf
    obtain ⟨entries, hlisting, rfl⟩ := Option.map_eq_some_iff.mp hfound
    exact listing?_eq_some.mp hlisting

/-! ### The same content in another order -/

/-- Two trees hold the same at every place. They may differ in the order in which their
folders list entries. -/
def SameContent (t t' : FileTree) : Prop :=
  ∀ place, (t.nodeAt? place).map FileNode.bare = (t'.nodeAt? place).map FileNode.bare

namespace SameContent

theorem symm (h : t.SameContent t') : t'.SameContent t := fun place => (h place).symm

/-- At every place both trees have the same, or a folder. -/
theorem cases (h : t.SameContent t') (place : List String) :
    t'.nodeAt? place = t.nodeAt? place ∨
      ∃ entries entries', t.nodeAt? place = some (.folder entries) ∧
        t'.nodeAt? place = some (.folder entries') := by
  have hbare := h place
  match hn : t.nodeAt? place, hn' : t'.nodeAt? place with
  | none, none => exact .inl rfl
  | none, some node => simp [hn, hn'] at hbare
  | some node, none => simp [hn, hn'] at hbare
  | some node, some node' =>
      rw [hn, hn', Option.map_some, Option.map_some, Option.some.injEq] at hbare
      rcases FileNode.eq_or_folders_of_bare_eq hbare.symm with rfl | ⟨entries, entries', rfl, rfl⟩
      · exact .inl rfl
      · exact .inr ⟨entries, entries', rfl, rfl⟩

theorem advance_eq (h : t.SameContent t') (place names : List String) :
    t'.advance place names = t.advance place names := by
  induction names generalizing place with
  | nil => rfl
  | cons name rest ih =>
      unfold advance
      split
      · exact ih place.dropLast
      · rcases h.cases (place ++ [name]) with heq | ⟨_, _, hn, hn'⟩
        · rw [heq]
          split <;> first | rfl | exact ih (place ++ [name])
        · rw [hn, hn']
          exact ih (place ++ [name])

theorem resolveFrom_eq (h : t.SameContent t') (limit : Nat) (place names : List String) :
    t'.resolveFrom limit place names = t.resolveFrom limit place names := by
  induction limit generalizing place names with
  | zero =>
      unfold resolveFrom
      rw [h.advance_eq]
  | succ limit ih =>
      unfold resolveFrom
      rw [h.advance_eq]
      split
      · rfl
      · rfl
      · simp only [ih]

/-- The same folders can be listed. -/
theorem isSome_listing? (h : t.SameContent t') (place : List String) :
    (t'.listing? place).isSome = (t.listing? place).isSome := by
  unfold listing?
  rcases h.cases place with heq | ⟨_, _, hn, hn'⟩
  · rw [heq]
  · rw [hn, hn']
    rfl

/-- A path leads to the same place. -/
theorem resolve_eq (h : t.SameContent t') (names : List String) :
    t'.resolve names = t.resolve names :=
  h.resolveFrom_eq linkLimit [] names

end SameContent

/-- The order in which the top folder lists its entries is not part of the content. -/
theorem sameContent_of_perm {entries entries' : List (String × FileNode)}
    (hperm : entries.Perm entries') (hnodup : (entries.map (·.1)).Nodup) :
    (⟨entries⟩ : FileTree).SameContent ⟨entries'⟩ := by
  intro place
  cases place with
  | nil => rfl
  | cons name names =>
      have hentry : FileNode.entry? entries name = FileNode.entry? entries' name := by
        ext node
        rw [FileNode.entry?_eq_some hnodup,
          FileNode.entry?_eq_some ((hperm.map _).nodup_iff.mp hnodup), hperm.mem_iff]
      unfold nodeAt?
      rw [List.foldl_cons, List.foldl_cons]
      dsimp only
      rw [hentry]

end FileTree

end CallAtlas
