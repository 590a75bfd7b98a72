import Mathlib
import CallAtlas.Proofs.Layout.Staging
import CallAtlas.Proofs.Layout.Word

/-!
# Stages in machine words

The walk that works out stages marks positions in a table, reads the stages of
what is done from another, and counts the links that it passes over. Here every
such step is checked, and no check ever fails (`WellFormed.staging?_eq`).

**The stages stay small.** Below the stage of a position that is done, every stage
but zero is the stage of some position that is done as well, so no stage exceeds
the number of positions (`Sound.stage_le`). The links passed over are distinct
pairs of positions (`Sound.cycleEdges_le`). Both are consequences of what the walk
keeps anyway, so they hold at every moment of it and not only at its end.
-/

namespace CallAtlas.Staging

open Word

/-! ### The walk with checked steps -/

/-- The work on a position begins. -/
def enter? (s : Staging) (i : Nat) : Option Staging := do
  return { s with marks := ← put? s.marks i .underWay }

/-- The work on a position ends. -/
def leave? (s : Staging) (i stage : Nat) : Option Staging := do
  return { s with stages := ← put? s.stages i stage, marks := ← put? s.marks i .done }

/-- Looks at one callee. -/
def lookAt? (visit : Nat → Staging → Option Staging) (acc : Staging × Nat) (d : Nat) :
    Option (Staging × Nat) := do
  match ← acc.1.marks[d]? with
  | .done => return (acc.1, max acc.2 (← acc.1.stages[d]?))
  | .underWay => return ({ acc.1 with cycleEdges := ← word? (acc.1.cycleEdges + 1) }, acc.2)
  | .untouched =>
      let s ← visit d acc.1
      return (s, max acc.2 (← s.stages[d]?))

/-- Works out the stage of a position. Where the depth gives out there is no
result. -/
def visit? (callees : Nat → List Nat) : Nat → Nat → Staging → Option Staging
  | 0, _, _ => none
  | fuel + 1, i, s => do
      let (s, highest) ← (callees i).foldlM (lookAt? (visit? callees fuel)) (← s.enter? i, 0)
      s.leave? i (← if (callees i).isEmpty then some 0 else word? (highest + 1))

/-- Works out the stage of a position unless that has been done. -/
def visitRoot? (callees : Nat → List Nat) (n : Nat) (s : Staging) (i : Nat) : Option Staging := do
  match ← s.marks[i]? with
  | .untouched => visit? callees (n + 1) i s
  | _ => some s

/-- The number of stages. -/
def count? (s : Staging) : Option Nat :=
  s.stages.toList.foldlM (fun m stage => do return max m (← word? (stage + 1))) 0

/-! ### Bounds -/

variable {callees : Nat → List Nat} {n : Nat} {under : List Nat} {cut : Finset (Nat × Nat)}
  {s : Staging} {i : Nat}

/-- Below the stage of a position that is done, every stage but zero is taken. -/
theorem Sound.exists_stage (h : Sound callees n under cut s)
    (hcallees : ∀ j, (callees j).Nodup ∧ ∀ d ∈ callees j, d < n) {m k : Nat} (hk : 0 < k) :
    ∀ {i : Nat}, i < n → s.mark i = .done → s.stage i = m → k ≤ m → ∃ j < n, s.stage j = k := by
  induction m with
  | zero =>
      intro i _ _ _ hkm
      omega
  | succ m ih =>
      intro i hi hdone hstage hkm
      rcases Nat.eq_or_lt_of_le hkm with rfl | hless
      · exact ⟨i, hi, hstage⟩
      · obtain ⟨d, hd, hdone', hmax⟩ := (h.hasStage i hi hdone).exists_callee (by omega) hstage
        exact ih ((hcallees i).2 d hd) hdone' hmax (by omega)

/-- No stage exceeds the number of positions. -/
theorem Sound.stage_le (h : Sound callees n under cut s)
    (hcallees : ∀ j, (callees j).Nodup ∧ ∀ d ∈ callees j, d < n) (hi : i < n)
    (hdone : s.mark i = .done) : s.stage i ≤ n := by
  have hsub : Finset.Icc 1 (s.stage i) ⊆ (Finset.range n).image s.stage := by
    intro k hk
    obtain ⟨hpos, hle⟩ := Finset.mem_Icc.mp hk
    obtain ⟨j, hj, hstage⟩ := h.exists_stage hcallees hpos hi hdone rfl hle
    exact Finset.mem_image.mpr ⟨j, Finset.mem_range.mpr hj, hstage⟩
  have hcard := (Finset.card_le_card hsub).trans Finset.card_image_le
  rw [Nat.card_Icc, Finset.card_range] at hcard
  omega

/-- Only as many links are passed over as there are pairs of positions. -/
theorem Sound.cycleEdges_le (h : Sound callees n under cut s)
    (hcallees : ∀ j, (callees j).Nodup ∧ ∀ d ∈ callees j, d < n) : s.cycleEdges ≤ n * n := by
  have hsub : cut ⊆ Finset.range n ×ˢ Finset.range n := by
    intro e he
    obtain ⟨hmem, hback⟩ := h.cut_cycle e he
    have htarget : e.2 < n := (hcallees e.1).2 e.2 hmem
    -- A start to which something leads is itself a callee, or is the end.
    have hsource : e.1 < n := by
      rcases Relation.ReflTransGen.cases_tail hback with heq | ⟨b, _, hb⟩
      · rw [heq]
        exact htarget
      · exact (hcallees b).2 e.1 hb
    exact Finset.mem_product.mpr ⟨Finset.mem_range.mpr hsource, Finset.mem_range.mpr htarget⟩
  have hcard := Finset.card_le_card hsub
  rwa [h.cut_card, Finset.card_product, Finset.card_range] at hcard

/-- What the callees looked at so far give is no larger than the number of
positions. -/
theorem IsHighest.le_of_sound {ds : List Nat} {k : Nat} (hk : IsHighest s cut i ds k)
    (h : Sound callees n under cut s)
    (hcallees : ∀ j, (callees j).Nodup ∧ ∀ d ∈ callees j, d < n) (hds : ∀ d ∈ ds, d ∈ callees i) :
    k ≤ n := by
  rcases hk.attained with rfl | ⟨d, hd, hcut, rfl⟩
  · exact Nat.zero_le n
  · exact h.stage_le hcallees ((hcallees i).2 d (hds d hd)) (hk.done d hd hcut)

/-! ### No check fails -/

section

variable (hcallees : ∀ j, (callees j).Nodup ∧ ∀ d ∈ callees j, d < n)

theorem Sound.getElem?_marks (h : Sound callees n under cut s) (hi : i < n) :
    s.marks[i]? = some (s.mark i) :=
  getElem?_eq_some_getD (by rw [h.size_marks]; exact hi) Mark.done

theorem Sound.getElem?_stages (h : Sound callees n under cut s) (hi : i < n) :
    s.stages[i]? = some (s.stage i) :=
  getElem?_eq_some_getD (by rw [h.size_stages]; exact hi) 0

theorem Sound.enter?_eq (h : Sound callees n under cut s) (hi : i < n) :
    s.enter? i = some (s.enter i) := by
  unfold enter?
  rw [put?_of_lt (by rw [h.size_marks]; exact hi)]
  rfl

theorem Sound.leave?_eq (h : Sound callees n under cut s) (hi : i < n) (k : Nat) :
    s.leave? i k = some (s.leave i k) := by
  unfold leave?
  rw [put?_of_lt (by rw [h.size_stages]; exact hi), put?_of_lt (by rw [h.size_marks]; exact hi)]
  rfl

include hcallees

theorem Sound.cycleEdges_lt (hn : n < 2 ^ 32) (h : Sound callees n under cut s) :
    s.cycleEdges < 2 ^ 64 :=
  calc s.cycleEdges ≤ n * n := h.cycleEdges_le hcallees
    _ < 2 ^ 32 * 2 ^ 32 := Nat.mul_lt_mul'' hn hn
    _ = 2 ^ 64 := by norm_num

/-- Looking at one more callee. The three cases are those of its mark; the number
of links passed over is a machine word because the walk is still sound with one
more. -/
theorem Looking.lookAt?_eq (hn : n < 2 ^ 32) {s₀ : Staging} {cut₀ : Finset (Nat × Nat)}
    {ds : List Nat} {acc : Staging × Nat} {fuel d : Nat}
    (h : Looking callees n under i s₀ cut₀ ds cut acc)
    (hleads : ∀ x ∈ under, Leads callees x i) (hd : d ∈ callees i) (hnew : d ∉ ds)
    (hvisit : acc.1.mark d = .untouched → VisitsTo callees n (i :: under) cut acc.1 fuel d)
    (hchecked : acc.1.mark d = .untouched →
      visit? callees fuel d acc.1 = some (visit callees fuel d acc.1))
    (hun : s₀.mark i = .untouched) :
    lookAt? (visit? callees fuel) acc d = some (Staging.lookAt (visit callees fuel) acc d) := by
  have hdn : d < n := (hcallees i).2 d hd
  obtain ⟨_, cut', hnext⟩ := h.lookAt hleads hd hnew hvisit hun
  have hword := hnext.sound.cycleEdges_lt hcallees hn
  unfold Staging.lookAt at hword
  unfold lookAt? Staging.lookAt
  rw [h.sound.getElem?_marks hdn]
  cases hmark : acc.1.mark d with
  | done =>
      rw [h.sound.getElem?_stages hdn]
      rfl
  | underWay =>
      rw [hmark] at hword
      dsimp only [Option.bind_eq_bind, Option.bind_some]
      rw [word?_of_lt hword]
      rfl
  | untouched =>
      obtain ⟨_, _, hsound, _⟩ := hvisit hmark
      dsimp only [Option.bind_eq_bind, Option.bind_some]
      rw [hchecked hmark, Option.bind_some, hsound.getElem?_stages hdn]
      rfl

/-- Looking at the rest of the callees, one after the other. -/
theorem Looking.foldlM_lookAt? (hn : n < 2 ^ 32) {s₀ : Staging} {cut₀ : Finset (Nat × Nat)}
    {fuel : Nat} {rest : List Nat} :
    ∀ {ds : List Nat} {cut : Finset (Nat × Nat)} {acc : Staging × Nat},
      Looking callees n under i s₀ cut₀ ds cut acc → (∀ x ∈ under, Leads callees x i) →
      (∀ d ∈ rest, d ∈ callees i) → (ds ++ rest).Nodup → s₀.mark i = .untouched →
      (∀ {d : Nat} {cut : Finset (Nat × Nat)} {s : Staging}, d ∈ callees i →
        Sound callees n (i :: under) cut s → Grows s₀ cut₀ s cut → s.mark d = .untouched →
        VisitsTo callees n (i :: under) cut s fuel d ∧
          visit? callees fuel d s = some (visit callees fuel d s)) →
      rest.foldlM (lookAt? (visit? callees fuel)) acc =
        some (rest.foldl (Staging.lookAt (visit callees fuel)) acc) := by
  induction rest with
  | nil => exact fun _ _ _ _ _ _ => rfl
  | cons d rest ih =>
      intro ds cut acc h hleads hmem hnd hun hvisit
      have hd : d ∈ callees i := hmem d List.mem_cons_self
      have hnew : d ∉ ds := by
        rw [List.nodup_append] at hnd
        exact fun hds => hnd.2.2 d hds d List.mem_cons_self rfl
      have hhere := fun hmark => hvisit hd h.sound h.grows hmark
      obtain ⟨_, cut', hnext⟩ := h.lookAt hleads hd hnew (fun hmark => (hhere hmark).1) hun
      have hnd' : (ds ++ [d] ++ rest).Nodup := by rwa [List.append_assoc, List.singleton_append]
      rw [List.foldlM_cons, h.lookAt?_eq hcallees hn hleads hd hnew (fun hmark => (hhere hmark).1)
        (fun hmark => (hhere hmark).2) hun, List.foldl_cons]
      exact ih hnext hleads (fun c hc => hmem c (List.mem_cons_of_mem d hc)) hnd' hun hvisit

/-- **A visit takes all of its steps** whenever its depth covers the untouched
positions. By induction on the depth, as for what a visit does. -/
theorem Sound.visit?_eq (hn : n < 2 ^ 32) {fuel : Nat} :
    ∀ {under : List Nat} {cut : Finset (Nat × Nat)} {s : Staging} {i : Nat},
      Sound callees n under cut s → i < n → s.mark i = .untouched →
      (∀ x ∈ under, Leads callees x i) → s.untouched n ≤ fuel →
      visit? callees fuel i s = some (Staging.visit callees fuel i s) := by
  induction fuel with
  | zero =>
      intro under cut s i _ hi hun _ hfuel
      exact absurd hfuel (Nat.not_le.mpr (untouched_pos hi hun))
  | succ fuel ih =>
      intro under cut s i h hi hun hleads hfuel
      have hvisit : ∀ {d : Nat} {cut' : Finset (Nat × Nat)} {s' : Staging}, d ∈ callees i →
          Sound callees n (i :: under) cut' s' → Grows s cut s' cut' → s'.mark d = .untouched →
          VisitsTo callees n (i :: under) cut' s' fuel d ∧
            visit? callees fuel d s' = some (Staging.visit callees fuel d s') := by
        intro d cut' s' hd hsound' hgrows' hun'
        obtain ⟨hleads', hfuel'⟩ := Sound.ready_callee hi hun hleads hfuel hd hsound' hgrows'
        have hdn : d < n := (hcallees i).2 d hd
        exact ⟨hsound'.visit hcallees hdn hun' hleads' hfuel', ih hsound' hdn hun' hleads' hfuel'⟩
      have hlooking := h.looking_enter hi hun
      have hnodup : ([] ++ callees i).Nodup := by
        rw [List.nil_append]
        exact (hcallees i).1
      have hfold := hlooking.foldlM_lookAt? hcallees hn hleads (fun d hd => hd) hnodup hun hvisit
      obtain ⟨_, cut', hlook⟩ := hlooking.foldl hleads (fun d hd => hd) hnodup hun
        fun hd hsound' hgrows' hun' => (hvisit hd hsound' hgrows' hun').1
      rw [List.nil_append] at hlook
      have hstage := hlook.highest.le_of_sound hlook.sound hcallees fun d hd => hd
      rw [visit_succ, visit?, h.enter?_eq hi]
      dsimp only [Option.bind_eq_bind, Option.bind_some]
      rw [hfold]
      dsimp only [Option.bind_some]
      split
      · exact hlook.sound.leave?_eq hi 0
      · rw [word?_of_lt (by omega)]
        exact hlook.sound.leave?_eq hi _

/-- A root is visited unless it is done. -/
theorem Sound.visitRoot?_eq (hn : n < 2 ^ 32) (h : Sound callees n [] cut s) (hi : i < n) :
    visitRoot? callees n s i = some (Staging.visitRoot callees n s i) := by
  unfold visitRoot? Staging.visitRoot
  rw [h.getElem?_marks hi]
  cases hmark : s.mark i with
  | untouched =>
      have hcount : s.untouched n ≤ n + 1 := by
        have hle := Finset.card_filter_le (Finset.range n) (s.mark · = .untouched)
        rw [Finset.card_range] at hle
        exact Nat.le_succ_of_le hle
      exact h.visit?_eq hcallees hn hi hmark (fun x hx => absurd hx List.not_mem_nil) hcount
  | underWay => rfl
  | done => rfl

end

/-- No stage is so high that there is no word for the number of stages. -/
theorem count?_eq (h : ∀ stage ∈ s.stages.toList, stage + 1 < 2 ^ 64) :
    s.count? = some s.count := by
  unfold count? count
  rw [← Array.foldl_toList]
  refine foldlM_eq_foldl (fun _ => True) trivial ?_
  intro m _ stage hstage
  rw [word?_of_lt (h stage hstage)]
  exact ⟨rfl, trivial⟩

end CallAtlas.Staging

namespace CallAtlas.Graph

open Word

/-- The stages of all entities of a graph, with checked steps. -/
def staging? (g : Graph) : Option Staging :=
  (g.sortedById (List.range g.entityCount)).foldlM
    (Staging.visitRoot? g.calleesById g.entityCount) (Staging.start g.entityCount)

/-- **Staging takes all of its steps** on every graph whose positions fit half a
machine word. -/
theorem WellFormed.staging?_eq {g : Graph} (hg : g.WellFormed) (hn : g.entityCount < 2 ^ 32) :
    g.staging? = some g.staging := by
  refine foldlM_eq_foldl
    (fun s => ∃ cut, Staging.Sound g.calleesById g.entityCount [] cut s)
    ⟨∅, Staging.sound_start _ _⟩ ?_
  intro s hs i hi
  obtain ⟨cut, hsound⟩ := hs
  have hlt : i < g.entityCount := List.mem_range.mp (mem_sortedById.mp hi)
  obtain ⟨_, cut', hsound', _⟩ := hsound.visitRoot hg.calleesById_spec hlt
  exact ⟨hsound.visitRoot?_eq hg.calleesById_spec hn hlt, cut', hsound'⟩

/-- No stage exceeds the number of entities. -/
theorem WellFormed.stage_le {g : Graph} (hg : g.WellFormed) {i : Nat} (hi : i < g.entityCount) :
    g.staging.stage i ≤ g.entityCount := by
  obtain ⟨_, _, hsound, hdone⟩ := hg.staging_done
  exact hsound.stage_le hg.calleesById_spec hi (hdone i hi)

/-- The number of stages is one that has a word. -/
theorem WellFormed.count?_staging {g : Graph} (hg : g.WellFormed) (hn : g.entityCount < 2 ^ 32) :
    g.staging.count? = some g.staging.count := by
  refine Staging.count?_eq ?_
  intro stage hstage
  obtain ⟨i, hi, rfl⟩ := List.mem_iff_getElem.mp hstage
  rw [Array.length_toList, hg.size_stages] at hi
  have hle := hg.stage_le hi
  rw [Staging.stage, Array.getElem?_eq_getElem (by rwa [hg.size_stages]), Option.getD_some] at hle
  rw [Array.getElem_toList]
  omega

end CallAtlas.Graph
