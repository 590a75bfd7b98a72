import Mathlib.Data.List.Induction
import Mathlib.Data.List.Nodup
import CallAtlas.Graph.Resolution

/-!
# Catalogs keep the first entity of every id

Both the catalog and the links of a graph are filled by the same rule: an item is
appended unless one with its **key** is there already. `firstByKey` is that rule
on lists, and everything the rule promises is proved about it once: what is kept
is a sublist, no key comes twice, and the item kept for a key is the first one
that had it.

The indexes of a catalog were filled from its entities, so what they find is told by
the entities alone (`IdIndex.find?_ofIds`, `NameIndex.positions_ofNames`).

The last part reads positions in a catalog as entities. Ids are distinct, so a
position, its entity and the id of that entity determine each other, and the
candidates of a callee are the entities that have its name and that the policy
admits.
-/

namespace CallAtlas

/-! ### The first item of every key -/

section FirstByKey

variable {α κ : Type} [DecidableEq κ]

/-- Appends an item unless one with its key is there. -/
def pushNew (key : α → κ) (kept : List α) (a : α) : List α :=
  if kept.any (fun b => key b == key a) then kept else kept ++ [a]

/-- The first item of every key, in order. -/
def firstByKey (key : α → κ) (as : List α) : List α := as.foldl (pushNew key) []

variable {key : α → κ}

theorem firstByKey_concat (as : List α) (a : α) :
    firstByKey key (as ++ [a]) = pushNew key (firstByKey key as) a := by
  simp [firstByKey]

theorem pushNew_of_mem {kept : List α} {a b : α} (hb : b ∈ kept) (h : key b = key a) :
    pushNew key kept a = kept := by
  unfold pushNew
  rw [if_pos (List.any_eq_true.mpr ⟨b, hb, by simpa using h⟩)]

theorem pushNew_of_forall_ne {kept : List α} {a : α} (h : ∀ b ∈ kept, key b ≠ key a) :
    pushNew key kept a = kept ++ [a] := by
  unfold pushNew
  rw [if_neg]
  intro hany
  obtain ⟨b, hb, heq⟩ := List.any_eq_true.mp hany
  exact h b hb (by simpa using heq)

/-- Appending meets one of two cases: the key is taken, or it is new. -/
theorem pushNew_cases (key : α → κ) (kept : List α) (a : α) :
    (∃ b ∈ kept, key b = key a ∧ pushNew key kept a = kept) ∨
      ((∀ b ∈ kept, key b ≠ key a) ∧ pushNew key kept a = kept ++ [a]) := by
  by_cases h : ∃ b ∈ kept, key b = key a
  · obtain ⟨b, hb, heq⟩ := h
    exact Or.inl ⟨b, hb, heq, pushNew_of_mem hb heq⟩
  · have hne : ∀ b ∈ kept, key b ≠ key a := fun b hb heq => h ⟨b, hb, heq⟩
    exact Or.inr ⟨hne, pushNew_of_forall_ne hne⟩

theorem firstByKey_sublist (key : α → κ) (as : List α) : (firstByKey key as).Sublist as := by
  induction as using List.reverseRecOn with
  | nil => exact List.Sublist.refl []
  | append_singleton as a ih =>
      rw [firstByKey_concat]
      rcases pushNew_cases key (firstByKey key as) a with ⟨_, _, _, h⟩ | ⟨_, h⟩
      · rw [h]
        exact ih.trans (List.sublist_append_left as [a])
      · rw [h]
        exact ih.append (List.Sublist.refl [a])

/-- No key comes twice. -/
theorem firstByKey_nodup (key : α → κ) (as : List α) : ((firstByKey key as).map key).Nodup := by
  induction as using List.reverseRecOn with
  | nil => exact List.nodup_nil
  | append_singleton as a ih =>
      rw [firstByKey_concat]
      rcases pushNew_cases key (firstByKey key as) a with ⟨_, _, _, h⟩ | ⟨hne, h⟩
      · rw [h]
        exact ih
      · rw [h, List.map_append, List.nodup_append]
        refine ⟨ih, List.nodup_singleton _, ?_⟩
        intro k hk k' hk' heq
        obtain ⟨b, hb, rfl⟩ := List.mem_map.mp hk
        exact hne b hb (heq.trans (List.mem_singleton.mp hk'))

/-- Every key is kept. -/
theorem exists_mem_firstByKey (key : α → κ) {as : List α} {a : α} (ha : a ∈ as) :
    ∃ b ∈ firstByKey key as, key b = key a := by
  induction as using List.reverseRecOn with
  | nil => cases ha
  | append_singleton as c ih =>
      rw [firstByKey_concat]
      have hkept : ∀ b ∈ firstByKey key as, b ∈ pushNew key (firstByKey key as) c := by
        intro b hb
        unfold pushNew
        split
        · exact hb
        · exact List.mem_append_left _ hb
      rcases List.mem_append.mp ha with h | h
      · obtain ⟨b, hb, heq⟩ := ih h
        exact ⟨b, hkept b hb, heq⟩
      · obtain rfl := List.mem_singleton.mp h
        rcases pushNew_cases key (firstByKey key as) a with ⟨b, hb, heq, _⟩ | ⟨_, h⟩
        · exact ⟨b, hkept b hb, heq⟩
        · exact ⟨a, by rw [h]; exact List.mem_append_right _ (List.mem_singleton_self a), rfl⟩

/-- **What is kept for a key is the first item that has it.** -/
theorem mem_firstByKey {as : List α} {a : α} :
    a ∈ firstByKey key as ↔ as.find? (fun b => key b == key a) = some a := by
  induction as using List.reverseRecOn with
  | nil => simp [firstByKey]
  | append_singleton as c ih =>
      rw [firstByKey_concat, List.find?_append]
      rcases pushNew_cases key (firstByKey key as) c with ⟨b, hb, heq, h⟩ | ⟨hne, h⟩
      · -- The key of `c` is taken, so the search for it ends before `c`.
        rw [h, ih]
        by_cases hca : key c = key a
        · have hsome : (as.find? (fun b => key b == key a)).isSome :=
            List.find?_isSome.mpr
              ⟨b, (firstByKey_sublist key as).subset hb, by simp [heq, hca]⟩
          obtain ⟨d, hd⟩ := Option.isSome_iff_exists.mp hsome
          rw [hd, Option.some_or]
        · simp [hca]
      · -- Nothing before `c` has its key.
        have hnone : ∀ b ∈ as, key b ≠ key c := by
          intro b hb hbc
          obtain ⟨d, hd, hdb⟩ := exists_mem_firstByKey key hb
          exact hne d hd (hdb.trans hbc)
        rw [h, List.mem_append, List.mem_singleton, ih]
        by_cases hca : key c = key a
        · have hfind : as.find? (fun b => key b == key a) = none :=
            List.find?_eq_none.mpr fun b hb => by simpa [← hca] using hnone b hb
          rw [hfind]
          simp [hca, eq_comm]
        · have hac : a ≠ c := fun hac => hca (by rw [hac])
          simp [hca, hac]

end FirstByKey

/-! ### What the indexes find -/

namespace IdIndex

theorem find?_insert (index : IdIndex) (k : String) (i : Nat) (id : String) :
    (index.insert k i).find? id = if id = k then some i else index.find? id := by
  unfold insert find?
  by_cases h : id = k
  · rw [if_pos h, h, List.lookup_cons_self]
  · rw [if_neg h, List.lookup_cons, beq_false_of_ne h]

/-- An id is found exactly if it is one of those put in. -/
theorem isSome_find?_ofIds {ids : List String} {id : String} :
    ((ofIds ids).find? id).isSome = true ↔ id ∈ ids := by
  induction ids using List.reverseRecOn with
  | nil => simp [ofIds, find?]
  | append_singleton ids k ih =>
      rw [ofIds_concat, find?_insert, List.mem_append, List.mem_singleton, ← ih]
      split <;> simp [*]

/-- Where no id comes twice, an id is found at its position. -/
theorem find?_ofIds {ids : List String} (h : ids.Nodup) {id : String} {i : Nat} :
    (ofIds ids).find? id = some i ↔ ids[i]? = some id := by
  induction ids using List.reverseRecOn with
  | nil => simp [ofIds, find?]
  | append_singleton ids k ih =>
      obtain ⟨hids, -, hk⟩ := List.nodup_append.mp h
      rw [ofIds_concat, find?_insert]
      by_cases hid : id = k
      · subst hid
        rw [if_pos rfl, Option.some.injEq, List.getElem?_append]
        have hnot : ids[i]? ≠ some id := fun hi =>
          hk id (List.mem_of_getElem? hi) id (List.mem_singleton_self id) rfl
        by_cases hi : i < ids.length
        · rw [if_pos hi]
          simp only [hnot, iff_false]
          omega
        · rw [if_neg hi, List.getElem?_singleton]
          split <;> simp <;> omega
      · rw [if_neg hid, ih hids, List.getElem?_append]
        by_cases hi : i < ids.length
        · rw [if_pos hi]
        · rw [if_neg hi, List.getElem?_eq_none (by omega), List.getElem?_singleton]
          split <;> simp [Ne.symm hid]

end IdIndex

namespace NameIndex

theorem positions_push (index : NameIndex) (k : String) (i : Nat) (name : String) :
    (index.push k i).positions name =
      if name = k then index.positions name ++ [i] else index.positions name := by
  unfold push
  by_cases h : name = k
  · rw [if_pos h, h]
    simp [positions]
  · rw [if_neg h]
    simp only [positions, List.lookup_cons, beq_false_of_ne h]

/-- The positions under a name are those where it stands, in order. -/
theorem positions_ofNames (names : List String) (name : String) :
    (ofNames names).positions name =
      (List.range names.length).filter fun i => names[i]? == some name := by
  induction names using List.reverseRecOn with
  | nil => rfl
  | append_singleton names k ih =>
      have hbefore : ((List.range names.length).filter fun i => (names ++ [k])[i]? == some name) =
          (List.range names.length).filter fun i => names[i]? == some name :=
        List.filter_congr fun i hi => by rw [List.getElem?_append_left (List.mem_range.mp hi)]
      rw [ofNames_concat, positions_push, ih, List.length_append, List.length_singleton,
        List.range_succ, List.filter_append, hbefore]
      by_cases h : name = k
      · simp [h]
      · simp [h, Ne.symm h]

end NameIndex

/-! ### Entities with distinct ids -/

/-- No two of these entities share an id. -/
def DistinctIds (es : Array Entity) : Prop := (es.toList.map Entity.id).Nodup

/-- Where ids are distinct, the position found for an id is the only one with an
entity of that id. -/
theorem DistinctIds.find?_ofIds {es : Array Entity} (h : DistinctIds es) {id : String}
    {i : Nat} :
    (IdIndex.ofIds (es.toList.map Entity.id)).find? id = some i ↔
      ∃ e, es[i]? = some e ∧ e.id = id := by
  rw [IdIndex.find?_ofIds h, List.getElem?_map, Option.map_eq_some_iff, Array.getElem?_toList]

/-- The positions under a name are those of the entities that have it, in order. -/
theorem NameIndex.positions_ofEntities (es : Array Entity) (name : String) :
    (ofNames (es.toList.map Entity.name)).positions name =
      (List.range es.size).filter fun i => (es[i]?).any (·.name == name) := by
  rw [positions_ofNames, List.length_map, Array.length_toList]
  refine List.filter_congr fun i _ => ?_
  rw [List.getElem?_map, Array.getElem?_toList]
  cases es[i]? <;> simp [Bool.beq_eq_decide_eq]

theorem DistinctIds.eq_of_id_eq {es : Array Entity} (h : DistinctIds es) {a b : Entity}
    (ha : a ∈ es) (hb : b ∈ es) (hid : a.id = b.id) : a = b :=
  List.inj_on_of_nodup_map h (by simpa using ha) (by simpa using hb) hid

namespace Arena

theorem contains_iff_mem {a : Arena} {id : String} :
    a.contains id = true ↔ id ∈ a.entities.toList.map Entity.id := by
  unfold contains
  rw [a.byId_eq]
  exact IdIndex.isSome_find?_ofIds

theorem toList_insert (a : Arena) (e : Entity) :
    (a.insert e).entities.toList = pushNew Entity.id a.entities.toList e := by
  unfold insert
  by_cases h : a.contains e.id
  · obtain ⟨b, hb, hid⟩ := List.mem_map.mp (contains_iff_mem.mp h)
    rw [if_pos h, pushNew_of_mem hb hid]
  · have hne : ∀ b ∈ a.entities.toList, b.id ≠ e.id := fun b hb hid =>
      h (contains_iff_mem.mpr (List.mem_map.mpr ⟨b, hb, hid⟩))
    rw [if_neg h, pushNew_of_forall_ne hne, Array.toList_push]

theorem toList_insertAll (a : Arena) (es : List Entity) :
    (a.insertAll es).entities.toList = es.foldl (pushNew Entity.id) a.entities.toList := by
  unfold insertAll
  induction es generalizing a with
  | nil => rfl
  | cons e es ih =>
      rw [List.foldl_cons, ih, toList_insert]
      rfl

/-- An arena holds the first entity of every id. -/
theorem toList_ofList (es : List Entity) :
    (ofList es).entities.toList = firstByKey Entity.id es :=
  toList_insertAll empty es

end Arena

namespace Catalog

theorem toList_ofList (es : List Entity) :
    (ofList es).entities.toList = firstByKey Entity.id es :=
  Arena.toList_ofList es

theorem distinctIds_ofList (es : List Entity) : DistinctIds (ofList es).entities := by
  unfold DistinctIds
  rw [toList_ofList]
  exact firstByKey_nodup Entity.id es

theorem mem_ofList {es : List Entity} {e : Entity} :
    e ∈ (ofList es).entities ↔ es.find? (·.id == e.id) = some e := by
  rw [← Array.mem_toList_iff, toList_ofList]
  exact mem_firstByKey

/-- Every id that was offered is taken. -/
theorem exists_mem_ofList {es : List Entity} {e : Entity} (he : e ∈ es) :
    ∃ e' ∈ (ofList es).entities, e'.id = e.id := by
  obtain ⟨e', he', hid⟩ := exists_mem_firstByKey Entity.id he
  exact ⟨e', by rwa [← Array.mem_toList_iff, toList_ofList], hid⟩

/-- In a catalog with distinct ids, the position found for an id is the only one with
an entity of that id. -/
theorem indexOf?_eq_some {c : Catalog} (hc : DistinctIds c.entities) {id : String} {i : Nat} :
    c.indexOf? id = some i ↔ ∃ e, c.entities[i]? = some e ∧ e.id = id := by
  unfold indexOf?
  rw [c.byId_eq]
  exact hc.find?_ofIds

/-- The positions found for a name are those of the entities with that name, in
order. -/
theorem named_eq_filter (c : Catalog) (name : String) :
    c.named name = (List.range c.size).filter fun i => (c.entities[i]?).any (·.name == name) := by
  unfold named
  rw [c.byName_eq]
  exact NameIndex.positions_ofEntities c.entities name

theorem mem_named {c : Catalog} {name : String} {i : Nat} :
    i ∈ c.named name ↔ ∃ e, c.entities[i]? = some e ∧ e.name = name := by
  rw [named_eq_filter, size, List.mem_filter, List.mem_range]
  constructor
  · intro h
    obtain ⟨hi, hname⟩ := h
    rw [Array.getElem?_eq_getElem hi] at hname ⊢
    exact ⟨_, rfl, by simpa using hname⟩
  · intro h
    obtain ⟨e, he, rfl⟩ := h
    obtain ⟨hi, _⟩ := Array.getElem?_eq_some_iff.mp he
    exact ⟨hi, by simp [he]⟩

/-! ### What a policy links -/

/-- Does a policy link a call of `callee` made in `file` to this entity of that
name? -/
def Admits (c : Catalog) (policy : ResolutionPolicy) (callee file : String) (e : Entity) : Prop :=
  match policy with
  | .allMatches => True
  | .sameFileOnly => e.filePath = file
  | .preferSameFile =>
      e.filePath = file ∨ ∀ e' ∈ c.entities, e'.name = callee → e'.filePath ≠ file

/-- The candidates of a callee are the entities that have its name and that the
policy admits. -/
theorem mem_candidates {c : Catalog} {policy : ResolutionPolicy} {callee file : String} {i : Nat} :
    i ∈ c.candidates policy callee file ↔
      ∃ e, c.entities[i]? = some e ∧ e.name = callee ∧ c.Admits policy callee file e := by
  have hlocal : ∀ i, i ∈ (c.named callee).filter (fun i => (c.get? i).any (·.filePath == file)) ↔
      ∃ e, c.entities[i]? = some e ∧ e.name = callee ∧ e.filePath = file := by
    intro i
    rw [List.mem_filter, mem_named]
    constructor
    · intro h
      obtain ⟨⟨e, he, hname⟩, hfile⟩ := h
      exact ⟨e, he, hname, by simpa [get?, he] using hfile⟩
    · intro h
      obtain ⟨e, he, hname, hfile⟩ := h
      exact ⟨⟨e, he, hname⟩, by simp [get?, he, hfile]⟩
  cases policy with
  | allMatches => simpa [candidates, Admits] using mem_named
  | sameFileOnly => exact hlocal i
  | preferSameFile =>
      unfold candidates
      dsimp only [Admits]
      split
      · -- Nothing in the file has the name, so everything with the name is linked.
        rename_i hempty
        have hnone : ∀ e' ∈ c.entities, e'.name = callee → e'.filePath ≠ file := by
          intro e' he' hname hfile
          obtain ⟨j, hj⟩ := Array.mem_iff_getElem?.mp he'
          have hmem := (hlocal j).mpr ⟨e', hj, hname, hfile⟩
          rw [List.isEmpty_iff.mp hempty] at hmem
          cases hmem
        rw [mem_named]
        constructor
        · intro h
          obtain ⟨e, he, hname⟩ := h
          exact ⟨e, he, hname, Or.inr hnone⟩
        · intro h
          obtain ⟨e, he, hname, _⟩ := h
          exact ⟨e, he, hname⟩
      · rename_i hne
        obtain ⟨j, hj⟩ := List.exists_mem_of_ne_nil _ (mt List.isEmpty_iff.mpr hne)
        obtain ⟨e', he', hname', hfile'⟩ := (hlocal j).mp hj
        rw [hlocal i]
        constructor
        · intro h
          obtain ⟨e, he, hname, hfile⟩ := h
          exact ⟨e, he, hname, Or.inl hfile⟩
        · rintro ⟨e, he, hname, hfile | hnone⟩
          · exact ⟨e, he, hname, hfile⟩
          · exact absurd hfile' (hnone e' (Array.mem_of_getElem? he') hname')

end Catalog

end CallAtlas
