import Mathlib
import CallAtlas.Proofs.Json.RoundTrip
import CallAtlas.Snapshot.Document

/-!
# A snapshot survives its document

Reading what `Snapshot.toText` wrote gives the snapshot back, whatever its texts hold
and whatever its lists are. There are two halves, and they meet at the document as a
JSON value.

* **The text says the document** (`Json.Whole.parse?_pretty`): a document of a snapshot
  holds whole numbers only.
* **The document says the snapshot** (`Snapshot.ofJson?_toJson`): a record is written
  with distinct names, so each member is found under its own name and is decoded to the
  value that was encoded.

Lines are numbers of 32 bits and counts are numbers of 64 bits. The types of the model
do not say so, so `Snapshot.InRange` does.
-/

namespace CallAtlas

/-! ### Records, numbers and lists -/

namespace Json

/-- A record whose members have distinct names is read as it stands, whatever names are
looked for. -/
theorem record?_object {members : List (String × Json)} (h : (members.map Prod.fst).Nodup)
    (names : List String) : record? names (object members) = some members := by
  have hcount : ∀ name ∈ names, members.countP (·.1 == name) ≤ 1 := by
    intro name _
    have hname : members.countP (·.1 == name) = (members.map Prod.fst).count name := by
      rw [List.count, List.countP_map]
      rfl
    rw [hname]
    exact List.nodup_iff_count_le_one.mp h name
  simp only [record?]
  rw [if_pos (by simpa using hcount)]

@[simp] theorem member?_cons_self (name : String) (v : Json) (members : List (String × Json)) :
    member? ((name, v) :: members) name = some v := by
  simp [member?]

@[simp] theorem member?_cons_of_ne {other name : String} (h : other ≠ name) (v : Json)
    (members : List (String × Json)) :
    member? ((other, v) :: members) name = member? members name := by
  simp [member?, h]

@[simp] theorem member?_nil (name : String) : member? [] name = none := rfl

@[simp] theorem member?_append (members members' : List (String × Json)) (name : String) :
    member? (members ++ members') name = (member? members name).or (member? members' name) := by
  simp [member?, Option.map_or]

@[simp] theorem member?_optionalMember (name : String) (value : Option Json) :
    member? (optionalMember name value) name = value := by
  cases value <;> simp [optionalMember]

@[simp] theorem member?_optionalMember_of_ne {other name : String} (h : other ≠ name)
    (value : Option Json) : member? (optionalMember other value) name = none := by
  cases value <;> simp [optionalMember, h]

/-- A member that may be missing is read as it was written, since what was written is
never null. -/
theorem optional_of_member? {α : Type} {members : List (String × Json)} {name : String}
    {decode : Json → Option α} {encode : α → Json} {value : Option α}
    (hmember : member? members name = value.map encode)
    (hdecode : ∀ x ∈ value, encode x ≠ null ∧ decode (encode x) = some x) :
    Json.optional members name decode = some value := by
  unfold Json.optional
  rw [hmember]
  cases value with
  | none => rfl
  | some x =>
      obtain ⟨hnull, hx⟩ := hdecode x rfl
      rw [Option.map_some]
      split
      case h_1 heq => cases heq
      case h_2 heq => exact absurd (Option.some.inj heq) hnull
      case h_3 heq => rw [← Option.some.inj heq, hx, Option.map_some]

theorem natBelow?_ofNat {n bound : Nat} (h : n < bound) : natBelow? bound (ofNat n) = some n := by
  simp [natBelow?, h]

theorem nat32?_ofNat {n : Nat} (h : n < 2 ^ 32) : nat32? (ofNat n) = some n :=
  natBelow?_ofNat h

theorem nat64?_ofNat {n : Nat} (h : n < 2 ^ 64) : nat64? (ofNat n) = some n :=
  natBelow?_ofNat h

theorem nat64?_of_counts {counts : List Nat} (h : ∀ n ∈ counts, n < 2 ^ 64) :
    ∀ n ∈ counts, nat64? (ofNat n) = some n :=
  fun n hn => nat64?_ofNat (h n hn)

/-- A list is read item by item. -/
theorem listOf?_map {α : Type} {decode : Json → Option α} {encode : α → Json} {xs : List α}
    (h : ∀ x ∈ xs, decode (encode x) = some x) :
    listOf? decode (array (xs.map encode)) = some xs := by
  change (xs.map encode).mapM decode = some xs
  induction xs with
  | nil => rfl
  | cons x xs ih =>
      have htail := ih fun y hy => h y (List.mem_cons_of_mem x hy)
      simp [h x List.mem_cons_self, htail]

@[simp] theorem listOf?_textsJson (texts : List String) :
    listOf? toString? (textsJson texts) = some texts :=
  listOf?_map fun _ _ => rfl

attribute [simp] Whole.string

@[simp] theorem whole_ofNat (n : Nat) : (ofNat n).Whole := .number false n

@[simp] theorem whole_array {items : List Json} : (array items).Whole ↔ ∀ j ∈ items, j.Whole :=
  ⟨fun h => by cases h; assumption, .array⟩

@[simp] theorem whole_object {members : List (String × Json)} :
    (object members).Whole ↔ ∀ m ∈ members, m.2.Whole :=
  ⟨fun h => by cases h; assumption, .object⟩

@[simp] theorem whole_textsJson (texts : List String) : (textsJson texts).Whole := by
  simp [textsJson]

end Json

open Json

/-! ### Entities, edges and files -/

/-- The lines and the degrees of an entity fit their types. -/
structure Entity.InRange (e : Entity) : Prop where
  startLine : e.startLine < 2 ^ 32
  endLine : e.endLine < 2 ^ 32
  outDegree : e.outDegree < 2 ^ 64
  inDegree : e.inDegree < 2 ^ 64

@[simp] theorem Entity.whole_toJson (e : Entity) : e.toJson.Whole := by
  simp [toJson]

theorem Entity.ofJson?_toJson {e : Entity} (h : e.InRange) : ofJson? e.toJson = some e := by
  unfold ofJson? toJson
  rw [record?_object (by simp)]
  simp [required, word?, EntityKind.ofName?_name, nat32?_ofNat h.startLine,
    nat32?_ofNat h.endLine, nat64?_ofNat h.outDegree, nat64?_ofNat h.inDegree]

@[simp] theorem Edge.whole_toJson (e : Edge) : e.toJson.Whole := by
  simp [toJson]

theorem Edge.ofJson?_toJson {e : Edge} (h : e.line < 2 ^ 32) : ofJson? e.toJson = some e := by
  unfold ofJson? toJson
  rw [record?_object (by simp)]
  simp [required, nat32?_ofNat h]

@[simp] theorem FileRecord.whole_toJson (f : FileRecord) : f.toJson.Whole := by
  simp [toJson]

theorem FileRecord.ofJson?_toJson {f : FileRecord} (h : f.entityCount < 2 ^ 64) :
    ofJson? f.toJson = some f := by
  unfold ofJson? toJson
  rw [record?_object (by simp)]
  simp [required, word?, Script.Language.ofName?_name, nat64?_ofNat h]

/-! ### Records of counts -/

/-- The counts of a histogram. -/
def ComplexityHistogram.counts (h : ComplexityHistogram) : List Nat :=
  [h.zero, h.low, h.medium, h.high, h.veryHigh]

/-- The counts of a summary, those of its histogram included. -/
def GraphSummary.counts (s : GraphSummary) : List Nat :=
  [s.entityCount, s.edgeCount, s.fileCount, s.groupCount, s.rootCount, s.leafCount,
    s.selfCallCount, s.maxOutDegree, s.maxInDegree] ++ s.complexity.counts

/-- The counts of the diagnostics. -/
def Diagnostics.counts (d : Diagnostics) : List Nat :=
  [d.totalCallSites, d.resolved, d.unresolved, d.ambiguous, d.uncontained, d.dynamic,
    d.edgesInserted, d.duplicateEdges]

@[simp] theorem ComplexityHistogram.whole_toJson (h : ComplexityHistogram) : h.toJson.Whole := by
  simp [toJson]

theorem ComplexityHistogram.ofJson?_toJson {h : ComplexityHistogram}
    (hcounts : ∀ n ∈ h.counts, n < 2 ^ 64) : ofJson? h.toJson = some h := by
  have hread := nat64?_of_counts hcounts
  unfold ofJson? toJson
  rw [record?_object (by simp)]
  simp only [counts, List.forall_mem_cons] at hread
  simp [required, hread]

@[simp] theorem GraphSummary.whole_toJson (s : GraphSummary) : s.toJson.Whole := by
  simp [toJson]

theorem GraphSummary.ofJson?_toJson {s : GraphSummary}
    (hcounts : ∀ n ∈ s.counts, n < 2 ^ 64) : ofJson? s.toJson = some s := by
  have hread := nat64?_of_counts hcounts
  have hcomplexity := ComplexityHistogram.ofJson?_toJson fun n hn =>
    hcounts n (List.mem_append_right _ hn)
  unfold ofJson? toJson
  rw [record?_object (by simp)]
  simp only [counts, List.forall_mem_cons, List.cons_append] at hread
  simp [required, hread, hcomplexity]

@[simp] theorem Diagnostics.whole_toJson (d : Diagnostics) : d.toJson.Whole := by
  simp [toJson]

theorem Diagnostics.ofJson?_toJson {d : Diagnostics}
    (hcounts : ∀ n ∈ d.counts, n < 2 ^ 64) : ofJson? d.toJson = some d := by
  have hread := nat64?_of_counts hcounts
  unfold ofJson? toJson
  rw [record?_object (by simp)]
  simp only [counts, List.forall_mem_cons] at hread
  simp [required, hread]

/-! ### Snapshots -/

namespace Snapshot

/-- Every number of a snapshot fits its type. -/
structure InRange (s : Snapshot) : Prop where
  version : s.version < 2 ^ 32
  files : ∀ f ∈ s.files, f.entityCount < 2 ^ 64
  entities : ∀ e ∈ s.entities, e.InRange
  edges : ∀ e ∈ s.edges, e.line < 2 ^ 32
  summary : ∀ n ∈ s.summary.counts, n < 2 ^ 64
  diagnostics : ∀ d ∈ s.diagnostics, ∀ n ∈ d.counts, n < 2 ^ 64

theorem whole_toJson (s : Snapshot) : s.toJson.Whole := by
  unfold toJson
  cases s.root <;> cases s.diagnostics <;> simp [optionalMember]

/-- **The document of a snapshot says the snapshot**, in whatever version it is. -/
theorem ofJson?_toJson {s : Snapshot} (h : s.InRange) : ofJson? s.toJson = some s := by
  have hfiles := listOf?_map fun f hf => FileRecord.ofJson?_toJson (h.files f hf)
  have hentities := listOf?_map fun e he => Entity.ofJson?_toJson (h.entities e he)
  have hedges := listOf?_map fun e he => Edge.ofJson?_toJson (h.edges e he)
  have hsummary := GraphSummary.ofJson?_toJson h.summary
  unfold ofJson? toJson
  rw [record?_object]
  case h => cases s.root <;> cases s.diagnostics <;> simp [optionalMember]
  have hroot : ∀ text ∈ s.root, string text ≠ null ∧ toString? (string text) = some text :=
    fun _ _ => ⟨nofun, rfl⟩
  have hdiagnostics : ∀ d ∈ s.diagnostics,
      d.toJson ≠ null ∧ Diagnostics.ofJson? d.toJson = some d :=
    fun d hd => ⟨nofun, Diagnostics.ofJson?_toJson (h.diagnostics d hd)⟩
  simp only [Option.bind_eq_bind, Option.bind_some]
  rw [optional_of_member? (by simp) hroot, optional_of_member? (by simp) hdiagnostics]
  simp [required, filesOf?, nat32?_ofNat h.version, hfiles, hentities, hedges, hsummary]

/-- **A snapshot survives its document**, whatever its texts hold, whatever its lists
are, and whether it has a root and diagnostics or not: read again, it is the same
snapshot. A snapshot of another version is refused, and the refusal names its version. -/
theorem ofText_toText (s : Snapshot) (h : s.InRange) :
    (s.version = snapshotVersion → ofText s.toText = .ok s) ∧
      (s.version ≠ snapshotVersion →
        ofText s.toText = .error (.snapshotVersion s.version snapshotVersion)) := by
  have hread : (parse? s.toText).bind ofJson? = some s := by
    rw [toText, s.whole_toJson.parse?_pretty, Option.bind_some, ofJson?_toJson h]
  unfold ofText
  rw [hread]
  exact ⟨fun h => if_pos h, fun h => if_neg h⟩

/-- A snapshot whose texts hold what has to be escaped, and whose numbers are the
greatest of their types. -/
def oddities (version : Nat) : Snapshot where
  version
  root := some "a \"quoted\" \\ root"
  files := [⟨"tab\t.ts", "", .typeScript, "line\nbreak", 2 ^ 64 - 1⟩]
  entities := [
    { id := "\x00\x08\x0c\x1f\x7f", name := "𝄞 é", filePath := "\r", group := "/",
      kind := .arrow, startLine := 0, endLine := 2 ^ 32 - 1, parameters := ["", "\\u0041"],
      outDegree := 0, inDegree := 2 ^ 64 - 1 }]
  edges := [⟨"", "\"", 2 ^ 32 - 1⟩]
  summary := { entityCount := 2 ^ 64 - 1 }
  diagnostics := some { dynamic := 2 ^ 64 - 1 }

theorem inRange_oddities {version : Nat} (h : version < 2 ^ 32) : (oddities version).InRange where
  version := h
  files := by simp [oddities]
  entities := by
    intro e he
    obtain rfl := List.mem_singleton.mp he
    exact ⟨by decide, by decide, by decide, by decide⟩
  edges := by simp [oddities]
  summary := by simp [oddities, GraphSummary.counts, ComplexityHistogram.counts]
  diagnostics := by simp [oddities, Diagnostics.counts]

theorem ofText_toText_oddities :
    ofText (oddities 1).toText = .ok (oddities 1) ∧
      ofText (oddities 7).toText = .error (.snapshotVersion 7 snapshotVersion) :=
  ⟨(ofText_toText (oddities 1) (inRange_oddities (by decide))).1 rfl,
    (ofText_toText (oddities 7) (inRange_oddities (by decide))).2 (by decide)⟩

end Snapshot

end CallAtlas
