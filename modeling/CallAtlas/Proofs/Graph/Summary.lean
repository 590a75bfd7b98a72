import Mathlib
import CallAtlas.Graph.Summary
import CallAtlas.Impact.Analyzer
import CallAtlas.Proofs.Graph.Insertion
import CallAtlas.Proofs.Layout.Partition

/-!
# The summary agrees with the queries

A summary is counted from what the graph stores: the degrees in its entities and its list of
links. Whoever asks about single entities, ids or groups is answered from somewhere else, from
the neighbours of a position, from the link between two positions, from the lanes of a layout.
`GraphSummary.Describes` says that counting the answers gives the summary, and by the invariant
of the graph it does so after any run of insertions.

What has to be known is little. A degree is the number of neighbours that a query lists
(`WellFormed.map_length_adjacent`), and an entity that calls itself has one link to itself, so
such links and their ids are as many (`WellFormed.selfCalls_nodup`).
-/

namespace CallAtlas

/-! ### What a summary promises -/

/-- The counts of a summary are those of the answers about a graph. -/
structure GraphSummary.Describes (s : GraphSummary) (g : Graph) : Prop where
  total_complexity : s.complexity.total = g.entityCount
  /-- An analyzer counts the same, bucket by bucket, whatever it was asked before. -/
  complexitySummary : ∀ (C : ReachCache) (a : Analyzer C), a.graph = g →
    ∃ counts, (a.ask .complexitySummary).1 = .ok (.histogram counts) ∧
      ∀ bucket, s.complexity.count bucket = counts.count bucket
  /-- An entity is in the bucket of the number of its callees. -/
  count_complexity : ∀ bucket, s.complexity.count bucket = g.entities.toList.countP fun e =>
    (g.callees e.id).map (fun es => Complexity.ofOutDegree es.length) = .ok bucket
  rootCount_eq_entryPoints : s.rootCount = (g.entryPoints .noCallers).length
  rootCount_eq_callers : s.rootCount = g.entities.toList.countP fun e => g.callers e.id = .ok []
  leafCount_eq : s.leafCount = g.entities.toList.countP fun e => g.callees e.id = .ok []
  selfCallCount_eq : {id | g.hasEdge id id = true}.encard = s.selfCallCount
  fileCount_eq : {path | ∃ e ∈ g.entities, e.filePath = path}.encard = s.fileCount
  groupCount_eq : {group | ∃ e ∈ g.entities, e.group = group}.encard = s.groupCount
  groupCount_eq_groups : s.groupCount = g.groups.length
  /-- Every layout has one lane for each group. -/
  groupCount_eq_lanes : ∀ (α : Type) [Coordinate α] (settings : LayoutSettings α),
    s.groupCount = (g.layout settings).groups.length
  /-- The largest numbers of callees and of callers are attained, unless there is no entity. -/
  maxOutDegree_isGreatest : g.isEmpty = false →
    IsGreatest {n | ∃ e ∈ g.entities, (g.callees e.id).map List.length = .ok n} s.maxOutDegree
  maxInDegree_isGreatest : g.isEmpty = false →
    IsGreatest {n | ∃ e ∈ g.entities, (g.callers e.id).map List.length = .ok n} s.maxInDegree
  max_eq_zero : g.isEmpty = true → s.maxOutDegree = 0 ∧ s.maxInDegree = 0

/-! ### Counting -/

namespace ComplexityHistogram

theorem count_record (h : ComplexityHistogram) (n : Nat) (bucket : Complexity) :
    (h.record n).count bucket =
      h.count bucket + if Complexity.ofOutDegree n = bucket then 1 else 0 := by
  unfold record
  cases Complexity.ofOutDegree n <;> cases bucket <;> rfl

theorem count_foldl_record (ns : List Nat) (h : ComplexityHistogram) (bucket : Complexity) :
    (ns.foldl record h).count bucket =
      h.count bucket + ns.countP (Complexity.ofOutDegree · = bucket) := by
  induction ns generalizing h with
  | nil => rfl
  | cons n ns ih =>
      rw [List.foldl_cons, ih, count_record, List.countP_cons, Nat.add_right_comm, Nat.add_assoc]
      simp

theorem count_ofOutDegrees (ns : List Nat) (bucket : Complexity) :
    (ofOutDegrees ns).count bucket = ns.countP (Complexity.ofOutDegree · = bucket) := by
  have hempty : count {} bucket = 0 := by cases bucket <;> rfl
  rw [ofOutDegrees, count_foldl_record, hempty, Nat.zero_add]

/-- Every degree falls into one bucket. -/
theorem total_ofOutDegrees (ns : List Nat) : (ofOutDegrees ns).total = ns.length := by
  have htotal : ∀ h : ComplexityHistogram, (ns.foldl record h).total = h.total + ns.length := by
    induction ns with
    | nil => exact fun _ => rfl
    | cons n ns ih =>
        intro h
        rw [List.foldl_cons, ih, total_record, List.length_cons]
        omega
  exact (htotal {}).trans (Nat.zero_add _)

end ComplexityHistogram

/-- There are as many items as a list without repetition has that lists them. -/
theorem encard_eq_length {β : Type} {bs : List β} (hbs : bs.Nodup) {P : β → Prop}
    (h : ∀ b, b ∈ bs ↔ P b) : {b | P b}.encard = bs.length := by
  classical
  have hset : {b | P b} = (bs.toFinset : Set β) := by
    ext b
    simp [h]
  rw [hset, Set.encard_coe_eq_coe_finsetCard, List.toFinset_card_of_nodup hbs]

/-- Texts that entities share are counted once. -/
theorem encard_distinctSorted (es : Array Entity) (f : Entity → String) :
    {s | ∃ e ∈ es, f e = s}.encard = (distinctSorted (es.toList.map f)).length := by
  apply encard_eq_length (nodup_distinctSorted _)
  intro s
  rw [mem_distinctSorted, List.mem_map]
  simp only [Array.mem_toList_iff]

namespace Graph

/-! ### Degrees and neighbours -/

/-- Entities without neighbours are counted by their degrees. -/
theorem WellFormed.countP_adjacent_eq_nil {g : Graph} (hg : g.WellFormed) (d : Direction) :
    (g.entities.toList.countP fun e => g.adjacent d e.id = .ok []) =
      g.entities.toList.countP fun e => e.degree d == 0 := by
  apply List.countP_congr
  intro e he
  simp [hg.adjacent_eq_nil_iff d (Array.mem_toList_iff.mp he)]

/-- The largest degree is the largest number of neighbours. -/
theorem WellFormed.isGreatest_degree {g : Graph} (hg : g.WellFormed) (d : Direction)
    (hne : g.isEmpty = false) :
    IsGreatest {n | ∃ e ∈ g.entities, (g.adjacent d e.id).map List.length = .ok n}
      (g.entities.toList.foldl (fun m e => max m (e.degree d)) 0) := by
  have hcounts : {n | ∃ e ∈ g.entities, (g.adjacent d e.id).map List.length = .ok n} =
      {n | ∃ e ∈ g.entities.toList, e.degree d = n} := by
    ext n
    simp only [Set.mem_ofPred_eq, Array.mem_toList_iff]
    refine exists_congr fun e => and_congr_right fun he => ?_
    rw [hg.map_length_adjacent d he, Except.ok.injEq]
  rw [hcounts]
  obtain ⟨hmem, hle⟩ := isGreatest_foldl_max (Entity.degree d) g.entities.toList 0
  refine ⟨?_, fun n hn => hle (Or.inr hn)⟩
  rcases hmem with hzero | hmem
  · -- If the start is the largest, all degrees are zero, and there is one.
    obtain ⟨e, he⟩ := List.exists_mem_of_ne_nil g.entities.toList (by simpa [isEmpty] using hne)
    have hdegree := hle (Or.inr ⟨e, he, rfl⟩)
    rw [hzero] at hdegree ⊢
    exact ⟨e, he, Nat.le_zero.mp hdegree⟩
  · exact hmem

/-! ### Self-calls -/

/-- The ids of the entities that have a link to themselves. -/
def selfCalls (g : Graph) : List String :=
  (g.links.toList.filter fun l => l.source == l.target).map fun l => (g.node l.source).id

/-- A pair is linked once, and so is an entity with itself. -/
theorem WellFormed.selfCalls_nodup {g : Graph} (hg : g.WellFormed) : g.selfCalls.Nodup := by
  apply List.Nodup.map_on
  · intro l hl m hm hid
    simp only [List.mem_filter, beq_iff_eq] at hl hm
    have hsource := hg.node_id_inj (hg.inBounds l (Array.mem_toList_iff.mp hl.1) .downstream)
      (hg.inBounds m (Array.mem_toList_iff.mp hm.1) .downstream) hid
    have hpair : l.pair = m.pair := (Link.pair_eq_iff .downstream).mpr
      ⟨hsource, hl.2.symm.trans (hsource.trans hm.2)⟩
    exact List.inj_on_of_nodup_map hg.pairs_nodup hl.1 hm.1 hpair
  · exact hg.pairs_nodup.of_map.filter _

theorem WellFormed.mem_selfCalls {g : Graph} (hg : g.WellFormed) {id : String} :
    id ∈ g.selfCalls ↔ g.hasEdge id id = true := by
  unfold selfCalls
  simp only [List.mem_map, List.mem_filter, Array.mem_toList_iff, beq_iff_eq]
  constructor
  · intro h
    obtain ⟨l, ⟨hl, hself⟩, rfl⟩ := h
    exact (hg.linked_iff_hasEdge.mp (linked_iff.mpr ⟨l, hl, rfl, hself.symm⟩)).2.2
  · intro h
    obtain ⟨i, j, hi, hj, hstep⟩ := hasEdge_iff.mp h
    obtain rfl : i = j := Option.some.inj (hi.symm.trans hj)
    obtain ⟨l, hl, hsource, htarget⟩ := linked_iff.mp hstep
    refine ⟨l, ⟨hl, hsource.trans htarget.symm⟩, ?_⟩
    rw [hsource]
    exact (hg.indexOf?_eq_some.mp hi).2

/-! ### The summary -/

theorem WellFormed.summary_describes {g : Graph} (hg : g.WellFormed) : g.summary.Describes g where
  total_complexity := by
    change (ComplexityHistogram.ofOutDegrees _).total = _
    rw [ComplexityHistogram.total_ofOutDegrees, List.length_map]
    exact Array.length_toList
  complexitySummary := by
    intro C a ha
    subst ha
    exact ⟨a.graph.complexitySummary, rfl, fun _ => rfl⟩
  count_complexity := by
    intro bucket
    change (ComplexityHistogram.ofOutDegrees _).count bucket = _
    rw [ComplexityHistogram.count_ofOutDegrees, List.countP_map]
    apply List.countP_congr
    intro e he
    obtain ⟨es, hes, hlength, _⟩ := hg.adjacent_spec .downstream (Array.mem_toList_iff.mp he)
    have hcallees : g.callees e.id = .ok es := hes
    have hdegree : e.outDegree = es.length := hlength
    simp [hcallees, hdegree, Except.map]
  rootCount_eq_entryPoints := by
    have haccepts : EntryPointRule.noCallers.accepts = fun e => e.inDegree == 0 := by
      funext e
      exact Bool.and_true _
    rw [entryPoints, haccepts, ← List.countP_eq_length_filter]
    rfl
  rootCount_eq_callers := (hg.countP_adjacent_eq_nil .upstream).symm
  leafCount_eq := (hg.countP_adjacent_eq_nil .downstream).symm
  selfCallCount_eq := by
    rw [encard_eq_length hg.selfCalls_nodup fun _ => hg.mem_selfCalls, selfCalls, List.length_map,
      ← List.countP_eq_length_filter]
    rfl
  fileCount_eq := encard_distinctSorted g.entities (·.filePath)
  groupCount_eq := encard_distinctSorted g.entities (·.group)
  groupCount_eq_groups := rfl
  groupCount_eq_lanes := by
    intro α _ settings
    have hlanes := congrArg List.length (g.names_layout settings)
    rw [List.length_map, g.names_lanes_perm.length_eq] at hlanes
    exact hlanes.symm
  maxOutDegree_isGreatest := hg.isGreatest_degree .downstream
  maxInDegree_isGreatest := hg.isGreatest_degree .upstream
  max_eq_zero := by
    intro h
    have hnil : g.entities = #[] := Array.isEmpty_iff.mp h
    simp [summary, hnil]

/-- **The summary agrees with the queries** after every run: whatever entities are offered and
whatever insertions are tried. -/
theorem ofInsertions_summary (entities : List Entity) (insertions : List Edge) :
    (ofInsertions entities insertions).summary.Describes (ofInsertions entities insertions) :=
  (wellFormed_ofInsertions entities insertions).summary_describes

end Graph

end CallAtlas
