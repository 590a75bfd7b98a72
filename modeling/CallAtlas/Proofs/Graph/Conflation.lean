import CallAtlas.Proofs.Graph.Containment
import CallAtlas.Proofs.Graph.Policy

/-!
# Which entities share an id

An id joins a path, a name and a line by colons, and does not say which of its colons these
are. The line can be read off its end, because digits are no colons. What is left can be cut
at any of its colons into a path and a name. **So two ids are the same exactly where the lines
are the same and one path goes on, after a colon, with what the other name begins with**
(`Entity.id_eq_iff`): then the one entity reads as the other.

Whatever goes by ids takes such entities for one. The catalog keeps the first of them, and
the graph gives it the calls of all. Under one path, or under paths without a colon, no entity
reads as another (`Entity.ReadsAs.colons`), and ids say all there is to say.
-/

namespace CallAtlas

open Script (ParsedFile Place Identity)

/-! ### Cutting at a sign -/

/-- Two texts that are joined at the same sign are the same where both are cut at the same
place, or one of them further on. -/
theorem joined_eq_iff {β : Type} {sign : β} {as bs cs ds : List β} :
    as ++ sign :: bs = cs ++ sign :: ds ↔
      (as = cs ∧ bs = ds) ∨ (∃ rest, cs = as ++ sign :: rest ∧ bs = rest ++ sign :: ds) ∨
        ∃ rest, as = cs ++ sign :: rest ∧ ds = rest ++ sign :: bs := by
  rw [List.append_eq_append_iff]
  constructor
  · rintro (⟨more, rfl, h⟩ | ⟨more, rfl, h⟩)
    · rcases List.cons_eq_append_iff.mp h with ⟨rfl, h⟩ | ⟨rest, rfl, rfl⟩
      · exact .inl ⟨(List.append_nil as).symm, (List.cons.inj h).2⟩
      · exact .inr (.inl ⟨rest, rfl, rfl⟩)
    · rcases List.cons_eq_append_iff.mp h with ⟨rfl, h⟩ | ⟨rest, rfl, rfl⟩
      · exact .inl ⟨List.append_nil cs, (List.cons.inj h).2.symm⟩
      · exact .inr (.inr ⟨rest, rfl, rfl⟩)
  · rintro (⟨rfl, rfl⟩ | ⟨rest, rfl, rfl⟩ | ⟨rest, rfl, rfl⟩)
    · exact .inl ⟨[], by simp, rfl⟩
    · exact .inl ⟨sign :: rest, rfl, rfl⟩
    · exact .inr ⟨sign :: rest, rfl, rfl⟩

/-- Without the sign behind it, there is one place to cut. -/
theorem joined_eq_iff_of_not_mem {β : Type} {sign : β} {as bs cs ds : List β} (hbs : sign ∉ bs)
    (hds : sign ∉ ds) : as ++ sign :: bs = cs ++ sign :: ds ↔ as = cs ∧ bs = ds := by
  rw [joined_eq_iff]
  constructor
  · rintro (h | ⟨rest, _, rfl⟩ | ⟨rest, _, rfl⟩)
    · exact h
    · exact absurd (List.mem_append_right rest List.mem_cons_self) hbs
    · exact absurd (List.mem_append_right rest List.mem_cons_self) hds
  · exact .inl

namespace Entity

theorem colon_not_mem_repr (line : Nat) : ':' ∉ (toString line).toList := by
  intro h
  rw [Nat.toString_eq_repr, Nat.toList_repr] at h
  exact absurd (Nat.isDigit_of_mem_toDigits (by decide) (by decide) h) (by decide)

/-- The line of an id can be read off its end. -/
theorem makeId_eq_iff {path path' name name' : String} {line line' : Nat} :
    makeId path name line = makeId path' name' line' ↔
      path.toList ++ ':' :: name.toList = path'.toList ++ ':' :: name'.toList ∧ line = line' := by
  have hchars : ∀ (path name : String) (line : Nat), (makeId path name line).toList =
      (path.toList ++ ':' :: name.toList) ++ ':' :: (toString line).toList := by
    intro path name line
    simp [makeId]
  rw [← String.toList_inj, hchars, hchars,
    joined_eq_iff_of_not_mem (colon_not_mem_repr line) (colon_not_mem_repr line'),
    String.toList_inj, Nat.toString_eq_repr, Nat.toString_eq_repr, Nat.repr_inj]

/-! ### Reading one entity as another -/

/-- The id is the one made from what the entity says of itself. -/
def Made (e : Entity) : Prop := e.id = makeId e.filePath e.name e.startLine

/-- Both are declared under one name on one line of one file. -/
def SameDeclaration (a b : Entity) : Prop :=
  a.filePath = b.filePath ∧ a.name = b.name ∧ a.startLine = b.startLine

/-- The first entity reads as the second: it starts on the same line, and if its path is taken
to end at a later colon, which is one of its name, then path and name are those of the
second. -/
def ReadsAs (a b : Entity) : Prop :=
  a.startLine = b.startLine ∧
    ∃ rest, b.filePath = a.filePath ++ ":" ++ rest ∧ a.name = rest ++ ":" ++ b.name

/-- Nothing in an id tells the entities apart. -/
def Alike (a b : Entity) : Prop := a.SameDeclaration b ∨ a.ReadsAs b ∨ b.ReadsAs a

theorem readsAs_iff {a b : Entity} :
    a.ReadsAs b ↔ a.startLine = b.startLine ∧ ∃ rest, b.filePath.toList =
      a.filePath.toList ++ ':' :: rest ∧ a.name.toList = rest ++ ':' :: b.name.toList := by
  refine and_congr_right fun _ => ?_
  constructor
  · rintro ⟨rest, hpath, hname⟩
    exact ⟨rest.toList, by simp [hpath], by simp [hname]⟩
  · rintro ⟨rest, hpath, hname⟩
    refine ⟨String.ofList rest, ?_, ?_⟩
    · apply String.toList_injective
      simp [hpath]
    · apply String.toList_injective
      simp [hname]

/-- **Ids are the same exactly where nothing in them tells the entities apart.** -/
theorem id_eq_iff {a b : Entity} (ha : a.Made) (hb : b.Made) : a.id = b.id ↔ a.Alike b := by
  rw [ha, hb, makeId_eq_iff, joined_eq_iff, Alike, SameDeclaration, readsAs_iff, readsAs_iff,
    String.toList_inj, String.toList_inj, eq_comm (a := b.startLine)]
  by_cases hline : a.startLine = b.startLine <;> simp [hline]

theorem make_made (name filePath group : String) (kind : EntityKind) (startLine endLine : Nat)
    (parameters : List String) :
    (make name filePath group kind startLine endLine parameters).Made := rfl

/-- Where one entity reads as another, the paths differ, one of them by a colon, and so does
the name under the other. -/
theorem ReadsAs.colons {a b : Entity} (h : a.ReadsAs b) :
    a.filePath ≠ b.filePath ∧ ':' ∈ b.filePath.toList ∧ ':' ∈ a.name.toList := by
  obtain ⟨_, rest, hpath, hname⟩ := readsAs_iff.mp h
  refine ⟨?_, by simp [hpath], by simp [hname]⟩
  intro heq
  have hlength := congrArg List.length hpath
  rw [heq, List.length_append, List.length_cons] at hlength
  omega

/-- Of two entities under one path, under paths without a colon or with names without one,
neither reads as the other. -/
theorem Alike.sameDeclaration {a b : Entity} (h : a.Alike b)
    (hcolon : a.filePath = b.filePath ∨ (':' ∉ a.filePath.toList ∧ ':' ∉ b.filePath.toList) ∨
      (':' ∉ a.name.toList ∧ ':' ∉ b.name.toList)) : a.SameDeclaration b := by
  rcases h with h | h | h
  · exact h
  · obtain ⟨hne, hpath, hname⟩ := h.colons
    rcases hcolon with heq | ⟨_, hb⟩ | ⟨ha, _⟩
    · exact absurd heq hne
    · exact absurd hpath hb
    · exact absurd hname ha
  · obtain ⟨hne, hpath, hname⟩ := h.colons
    rcases hcolon with heq | ⟨ha, _⟩ | ⟨_, hb⟩
    · exact absurd heq.symm hne
    · exact absurd hpath ha
    · exact absurd hname hb

end Entity

/-! ### What goes by ids -/

/-- The arena turns an entity away exactly where it was offered one like it before. -/
theorem Arena.insert_eq_iff {es : List Entity} {e : Entity} (hes : ∀ a ∈ es, a.Made)
    (he : e.Made) : ((ofList es).insert e).entities = (ofList es).entities ↔
      ∃ a ∈ es, a.Alike e := by
  rw [← Array.toList_inj, toList_insert, toList_ofList]
  constructor
  · intro h
    rcases pushNew_cases Entity.id (firstByKey Entity.id es) e with ⟨a, ha, hid, _⟩ | ⟨_, hnew⟩
    · have ha := (firstByKey_sublist Entity.id es).subset ha
      exact ⟨a, ha, (Entity.id_eq_iff (hes a ha) he).mp hid⟩
    · rw [hnew] at h
      exact absurd (congrArg List.length h) (by simp)
  · rintro ⟨a, ha, halike⟩
    obtain ⟨kept, hkept, hid⟩ := exists_mem_firstByKey Entity.id ha
    exact pushNew_of_mem hkept (hid.trans ((Entity.id_eq_iff (hes a ha) he).mpr halike))

theorem made_of_mem_entities {file : ParsedFile} {e : Entity} (he : e ∈ file.entities) :
    e.Made := by
  obtain ⟨_, _, _, rfl⟩ := exists_make_of_mem_entities he
  exact Entity.make_made ..

namespace Graph

theorem made_of_mem_buildFromFiles {policy : ResolutionPolicy} {files : List ParsedFile}
    {e : Entity} (he : e ∈ (buildFromFiles policy files).1.entities) : e.Made := by
  obtain ⟨_, _, hfound⟩ := Catalog.exists_mem_entities_of_mem_ofFiles (unlinked_mem_ofFiles he)
  -- Degrees have no part in an id.
  have hmade : e.unlinked.Made := made_of_mem_entities hfound
  exact hmade

/-- The graph knows every entity of the files by its id, and takes it for one like it. -/
theorem exists_alike (policy : ResolutionPolicy) {files : List ParsedFile} {file : ParsedFile}
    (hfile : file ∈ files) {e : Entity} (he : e ∈ file.entities) :
    ∃ kept, (buildFromFiles policy files).1.entity? e.id = some kept ∧ kept.Alike e := by
  obtain ⟨found, hfound, hid⟩ :=
    Catalog.exists_mem_ofList (List.mem_flatMap.mpr ⟨file, hfile, he⟩)
  change found ∈ (Catalog.ofFiles files).entities at hfound
  rw [← unlinked_buildFromFiles policy, Array.mem_map] at hfound
  obtain ⟨kept, hkept, rfl⟩ := hfound
  have hg := wellFormed_buildFromFiles policy files
  refine ⟨kept, hg.entity?_eq_some.mpr ⟨hkept, hid⟩, ?_⟩
  exact (Entity.id_eq_iff (made_of_mem_buildFromFiles hkept) (made_of_mem_entities he)).mp hid

end Graph

/-- The caller of an edge is like the function that contains the call. -/
theorem MakesCall.exists_alike {policy : ResolutionPolicy} {files : List ParsedFile}
    {s t : String} {o : Occurrence} (h : MakesCall policy files s t o) :
    ∃ q e, o.place.IsContainer q ∧ o.file.entityAt? q.visit = some e ∧
      ∃ kept, (Graph.buildFromFiles policy files).1.entity? s = some kept ∧ kept.Alike e := by
  obtain ⟨⟨hfile, hcovers⟩, _, _, _, identity, _, henclosing, rfl, _⟩ := h
  obtain ⟨q, hq, hidentity⟩ := Place.enclosing?_eq_some_iff.mp henclosing
  obtain ⟨e, he, hid⟩ := o.file.exists_entityAt? hidentity
  have hmem := ParsedFile.mem_entities_of_entityAt? (hcovers.of_mem_above rfl hq.mem_above) he
  rw [← hid]
  exact ⟨q, e, hq, he, Graph.exists_alike policy (List.mem_of_getElem? hfile) hmem⟩

namespace Graph

/-- **Entities are conflated exactly where one reads as another.** For all entities under
their own ids, offered one after the other, all files and all policies:

* the arena turns an entity away if one like it was offered before, and only then;
* the graph has, under the id of every function of a file, an entity like it;
* and the caller of every edge is like the functions that make the call.

What is alike is declared under one name on one line of one file, unless the paths differ and
a path and a name have a colon. -/
theorem conflated_iff_alike (policy : ResolutionPolicy) (files : List ParsedFile)
    (es : List Entity) (e : Entity) (hes : ∀ a ∈ es, a.Made) (he : e.Made) :
    (((Arena.ofList es).insert e).entities = (Arena.ofList es).entities ↔
      ∃ a ∈ es, a.Alike e) ∧
    (∀ file ∈ files, ∀ e ∈ file.entities,
      ∃ kept, (buildFromFiles policy files).1.entity? e.id = some kept ∧ kept.Alike e) ∧
    (∀ s t o, MakesCall policy files s t o →
      ∃ q e, o.place.IsContainer q ∧ o.file.entityAt? q.visit = some e ∧
        ∃ kept, (buildFromFiles policy files).1.entity? s = some kept ∧ kept.Alike e) ∧
    ∀ a b : Entity, a.Alike b →
      (a.filePath = b.filePath ∨ (':' ∉ a.filePath.toList ∧ ':' ∉ b.filePath.toList) ∨
        (':' ∉ a.name.toList ∧ ':' ∉ b.name.toList)) → a.SameDeclaration b :=
  ⟨Arena.insert_eq_iff hes he, fun _ hfile _ he => exists_alike policy hfile he,
    fun _ _ _ h => h.exists_alike, fun _ _ h => h.sameDeclaration⟩

/-- A function under the key `"x.ts:f"` that calls nothing, and a function `g`. -/
def keyedByPath : ParsedFile where
  path := "a.ts"
  group := "."
  language := .typeScript
  source := ""
  tree :=
    .mk (.other "program") none "" 1 2
      [.mk .pair none "" 1 1
        [.mk .stringLiteral (some .key) "\"x.ts:f\"" 1 1 [],
          .mk .arrowFunction (some .value) "() => \x7b\x7d" 1 1 []],
        .mk .functionDeclaration none "" 2 2 [.mk .identifier (some .name) "g" 2 2 []]]
  contentHash := 0

/-- A function `f` that calls `g`, in a file with a colon in its name. -/
def colonInPath : ParsedFile where
  path := "a.ts:x.ts"
  group := "."
  language := .typeScript
  source := ""
  tree :=
    .mk (.other "program") none "" 1 1
      [.mk .functionDeclaration none "" 1 1
        [.mk .identifier (some .name) "f" 1 1 [],
          .mk .callExpression none "g()" 1 1 [.mk .identifier (some .callee) "g" 1 1 []]]]
  contentHash := 0

/-- The function under the key reads as `f` of the other file, and turns it away. Nothing reads
as `g`, whose name has no colon. -/
theorem conflated_iff_alike_keyed :
    let a : Entity := .make "x.ts:f" "a.ts" "." .arrow 1 1 []
    let b : Entity := .make "f" "a.ts:x.ts" "." .declaration 1 1 []
    let files := [keyedByPath, colonInPath]
    ((Arena.ofList [a]).insert b).entities = (Arena.ofList [a]).entities ∧
      (∃ o, MakesCall .allMatches files b.id "a.ts:g:2" o ∧ ∃ q e, o.place.IsContainer q ∧
        o.file.entityAt? q.visit = some e ∧ ∃ kept,
          (buildFromFiles .allMatches files).1.entity? b.id = some kept ∧ kept.Alike e) ∧
      ∃ kept, (buildFromFiles .allMatches files).1.entity? "a.ts:g:2" = some kept ∧
        kept.SameDeclaration (.make "g" "a.ts" "." .declaration 2 2 []) := by
  intro a b files
  obtain ⟨hinsert, hentities, hcalls, hsame⟩ := conflated_iff_alike .allMatches files [a] b
    (by simp [a, Entity.make_made]) (Entity.make_made ..)
  refine ⟨?_, ?_, ?_⟩
  · refine hinsert.mpr ?_
    exact ⟨a, List.mem_singleton_self a, .inr (.inl ⟨rfl, "x.ts", by decide, by decide⟩)⟩
  · have hedge : (buildFromFiles .allMatches files).1.hasEdge b.id "a.ts:g:2" = true := by
      decide +kernel
    obtain ⟨o, ho⟩ := hasEdge_buildFromFiles.mp hedge
    exact ⟨o, ho, hcalls _ _ _ ho⟩
  · have hg : Entity.make "g" "a.ts" "." .declaration 2 2 [] ∈ keyedByPath.entities := by
      decide +kernel
    obtain ⟨kept, hkept, halike⟩ := hentities keyedByPath List.mem_cons_self _ hg
    have hname : ((buildFromFiles .allMatches files).1.entity? "a.ts:g:2").map (·.name) =
        some "g" := by decide +kernel
    have hid : (Entity.make "g" "a.ts" "." .declaration 2 2 []).id = "a.ts:g:2" := by decide +kernel
    rw [hid] at hkept
    rw [hkept, Option.map_some, Option.some_inj] at hname
    exact ⟨kept, hkept, hsame _ _ halike (.inr (.inr ⟨by rw [hname]; decide, by decide⟩))⟩

/-- Two functions of different files, with different names, go by one id: the second is dropped
in favour of the first, and the first is given its call. -/
theorem call_given_to_another :
    let g := (buildFromFiles .allMatches [keyedByPath, colonInPath]).1
    (keyedByPath.entities ++ colonInPath.entities).map (fun e => (e.filePath, e.name, e.startLine)) =
      [("a.ts", "x.ts:f", 1), ("a.ts", "g", 2), ("a.ts:x.ts", "f", 1)] ∧
    Entity.makeId "a.ts" "x.ts:f" 1 = Entity.makeId "a.ts:x.ts" "f" 1 ∧
    g.entities.toList.map (fun e => (e.filePath, e.name, e.outDegree)) =
      [("a.ts", "x.ts:f", 1), ("a.ts", "g", 0)] ∧
    keyedByPath.callSites = [] := by
  decide +kernel

end Graph

end CallAtlas
