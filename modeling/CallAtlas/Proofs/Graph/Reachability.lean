import Mathlib.Data.List.Perm.Subperm
import CallAtlas.Graph.Reachability
import CallAtlas.Proofs.Graph.Distance
import CallAtlas.Proofs.Graph.Insertion

/-!
# The search finds every position at its distance

`reachable` expands positions in the order they were met. It is exact: what it
finds are the positions whose distance from the start is within the limit, each
once, nearest first, and a limit only cuts the list of the unlimited search short.

**The invariant** (`Search.Sound`) holds between any two expansions. What carries
the argument is that distances never decrease along the queue, so that when a
position at distance `k` is expanded, everything nearer has been expanded already
(`Sound.mem_of_path`). A position met for the first time then cannot be nearer than
`k + 1`: the distance it is given is the right one.

**The bound.** Every position enters the queue at most once, so the number of
positions bounds the expansions and the search ends with an empty queue
(`WellFormed.sound_run`); more expansions would change nothing.
-/

namespace CallAtlas.Graph

/-- A distance does not exceed a limit; there may be none. -/
def Within (limit : Option Nat) (k : Nat) : Prop := ∀ m, limit = some m → k ≤ m

theorem Within.mono {limit : Option Nat} {k m : Nat} (h : Within limit m) (hkm : k ≤ m) :
    Within limit k :=
  fun n hn => Nat.le_trans hkm (h n hn)

theorem within_succ_iff {limit : Option Nat} {k : Nat} :
    Within limit (k + 1) ↔ limit.any (· ≤ k) = false := by
  cases limit with
  | none => simp [Within]
  | some m =>
      simp only [Within, Option.some.injEq, forall_eq', Option.any_some, decide_eq_false_iff_not]
      omega

namespace Search

/-! ### Meeting a position -/

/-- Has a position been met? Those outside the graph count as met. -/
def Met (s : Search) (i : Nat) : Prop := (s.seen[i]?).getD true = true

/-- Meeting does nothing, or adds a new position at the end of the queue. -/
theorem meet_cases (k : Nat) (s : Search) (i : Nat) :
    (s.Met i ∧ s.meet k i = s) ∨
      (¬ s.Met i ∧ s.meet k i =
        { queue := s.queue ++ [(i, k)], seen := s.seen.setIfInBounds i true,
          found := i :: s.found }) := by
  unfold meet Met
  by_cases h : (s.seen[i]?).getD true = true
  · exact Or.inl ⟨h, if_pos h⟩
  · exact Or.inr ⟨h, if_neg h⟩

theorem met_setIfInBounds {s : Search} {i j : Nat} (hi : ¬ s.Met i) :
    ((s.seen.setIfInBounds i true)[j]?).getD true = true ↔ j = i ∨ s.Met j := by
  unfold Met at *
  rw [Array.getElem?_setIfInBounds]
  by_cases hij : i = j
  · subst hij
    have hlt : i < s.seen.size := by
      by_contra hge
      exact hi (by rw [Array.getElem?_eq_none (by omega), Option.getD_none])
    simp [hlt]
  · simp [hij, Ne.symm hij]

/-- Meeting looks at the end of the queue only. -/
theorem meet_cons (k : Nat) (s : Search) (q : Nat × Nat) (i : Nat) :
    ({ s with queue := q :: s.queue } : Search).meet k i =
      { s.meet k i with queue := q :: (s.meet k i).queue } := by
  unfold meet
  dsimp only
  split <;> rfl

theorem foldl_meet_cons (k : Nat) (q : Nat × Nat) (is : List Nat) (s : Search) :
    is.foldl (meet k) { s with queue := q :: s.queue } =
      { is.foldl (meet k) s with queue := q :: (is.foldl (meet k) s).queue } := by
  induction is generalizing s with
  | nil => rfl
  | cons i is ih => rw [List.foldl_cons, List.foldl_cons, meet_cons, ih]

/-- What has been found stays, in its place. -/
theorem found_suffix_meet (k : Nat) (s : Search) (i : Nat) : s.found <:+ (s.meet k i).found := by
  rcases meet_cases k s i with ⟨_, h⟩ | ⟨_, h⟩
  · exact h.symm ▸ List.suffix_refl s.found
  · rw [h]
    exact List.suffix_cons i s.found

/-- Every position found has entered the queue. -/
theorem length_meet (k : Nat) (s : Search) (i : Nat) :
    (s.meet k i).queue.length + s.found.length = s.queue.length + (s.meet k i).found.length := by
  rcases meet_cases k s i with ⟨_, h⟩ | ⟨_, h⟩
  · rw [h]
  · rw [h]
    simp only [List.length_append, List.length_cons, List.length_nil]
    omega

theorem length_foldl_meet (k : Nat) (is : List Nat) (s : Search) :
    (is.foldl (meet k) s).queue.length + s.found.length =
      s.queue.length + (is.foldl (meet k) s).found.length := by
  induction is generalizing s with
  | nil => rfl
  | cons i is ih =>
      have hstep := length_meet k s i
      have hrest := ih (s.meet k i)
      rw [List.foldl_cons]
      omega

/-! ### The invariant -/

/-- What is true of a search from `start` between two expansions. -/
structure Sound (g : Graph) (d : Direction) (limit : Option Nat) (start : Nat) (s : Search) :
    Prop where
  met_iff : ∀ i, s.Met i ↔ g.entityCount ≤ i ∨ i = start ∨ i ∈ s.found
  nodup : s.found.Nodup
  start_not_mem : start ∉ s.found
  /-- The distance of what has been found is known, and within the limit. -/
  found_spec : ∀ i ∈ s.found, i < g.entityCount ∧ ∃ k, g.IsDistance d start i k ∧ Within limit k
  /-- The newest comes first and is the farthest. -/
  found_sorted : s.found.Pairwise fun i j =>
    ∀ k m, g.IsDistance d start i k → g.IsDistance d start j m → m ≤ k
  queue_mem : ∀ q ∈ s.queue, q.1 = start ∨ q.1 ∈ s.found
  queue_dist : ∀ q ∈ s.queue, g.IsDistance d start q.1 q.2
  queue_sorted : s.queue.Pairwise fun q r => q.2 ≤ r.2
  /-- Nothing found is more than a step farther than what waits. -/
  found_le : ∀ i ∈ s.found, ∀ k, g.IsDistance d start i k → ∀ q ∈ s.queue, k ≤ q.2 + 1
  /-- What does not wait any more has been expanded, unless the limit forbids. -/
  closed : ∀ i, i = start ∨ i ∈ s.found → (∃ k, (i, k) ∈ s.queue) ∨
    ∀ k, g.IsDistance d start i k → Within limit (k + 1) → ∀ j, g.Step d i j → s.Met j

variable {g : Graph} {d : Direction} {limit : Option Nat} {start : Nat} {s : Search}

theorem Sound.mem_of_met (h : Sound g d limit start s) {i : Nat} (hi : s.Met i)
    (hlt : i < g.entityCount) : i = start ∨ i ∈ s.found := by
  rcases (h.met_iff i).mp hi with hge | hmem
  · omega
  · exact hmem

/-- What has been found or started from has a distance. -/
theorem Sound.exists_isDistance (h : Sound g d limit start s) {i : Nat}
    (hi : i = start ∨ i ∈ s.found) : ∃ k, g.IsDistance d start i k := by
  rcases hi with rfl | hi
  · exact ⟨0, isDistance_start⟩
  · obtain ⟨_, k, hk, _⟩ := h.found_spec i hi
    exact ⟨k, hk⟩

/-- The next position to expand is as near as any that waits. -/
theorem Sound.head_le (h : Sound g d limit start s) {u k : Nat} {rest : List (Nat × Nat)}
    (hq : s.queue = (u, k) :: rest) {q : Nat × Nat} (hmem : q ∈ s.queue) : k ≤ q.2 := by
  have hsorted := h.queue_sorted
  rw [hq] at hsorted hmem
  rcases List.mem_cons.mp hmem with rfl | htail
  · exact Nat.le_refl _
  · exact List.rel_of_pairwise_cons hsorted htail

/-- What waits is at most a step farther than the next position to expand. -/
theorem Sound.le_head_succ (h : Sound g d limit start s) {u k : Nat} {rest : List (Nat × Nat)}
    (hq : s.queue = (u, k) :: rest) {q : Nat × Nat} (hmem : q ∈ s.queue) : q.2 ≤ k + 1 := by
  rcases h.queue_mem q hmem with hstart | hfound
  · have hzero : q.2 = 0 := (hstart ▸ h.queue_dist q hmem).unique isDistance_start
    omega
  · have hhead : (u, k) ∈ s.queue := by rw [hq]; exact List.mem_cons_self
    exact h.found_le q.1 hfound q.2 (h.queue_dist q hmem) (u, k) hhead

/-- **Everything as near as the next position to expand has been met**: of a path
shorter than that, every position but the last has been expanded. -/
theorem Sound.mem_of_path (hg : g.WellFormed) (h : Sound g d limit start s) {u k : Nat}
    {rest : List (Nat × Nat)} (hq : s.queue = (u, k) :: rest) (hk : Within limit (k + 1))
    {m i : Nat} (p : g.Path d start m i) (hm : m ≤ k) : i = start ∨ i ∈ s.found := by
  induction p with
  | nil => exact Or.inl rfl
  | @snoc m i j p hstep ih =>
      have hi := ih (by omega)
      obtain ⟨n, hnm, hn⟩ := p.exists_isDistance
      refine h.mem_of_met ?_ (hg.step_lt hstep).2
      rcases h.closed i hi with ⟨n', hmem⟩ | hexp
      · -- It would still wait, behind a position that is farther.
        have hn' : n' = n := (h.queue_dist _ hmem).unique hn
        have hle : k ≤ n' := h.head_le hq hmem
        omega
      · exact hexp n hn (hk.mono (by omega)) j hstep

/-- A position met for the first time is one step farther than the one it is met
from. -/
theorem Sound.isDistance_of_not_met (hg : g.WellFormed) (h : Sound g d limit start s) {u k : Nat}
    {rest : List (Nat × Nat)} (hq : s.queue = (u, k) :: rest) (hk : Within limit (k + 1)) {w : Nat}
    (hstep : g.Step d u w) (hw : ¬ s.Met w) : g.IsDistance d start w (k + 1) := by
  have hu : g.IsDistance d start u k := h.queue_dist (u, k) (by rw [hq]; exact List.mem_cons_self)
  refine ⟨.snoc hu.path hstep, ?_⟩
  intro m p
  by_contra hlt
  exact hw ((h.met_iff w).mpr (Or.inr (h.mem_of_path hg hq hk p (by omega))))

/-- Meeting a neighbour of the next position to expand keeps the invariant. -/
theorem Sound.meet (hg : g.WellFormed) (h : Sound g d limit start s) {u k : Nat}
    {rest : List (Nat × Nat)} (hq : s.queue = (u, k) :: rest) (hk : Within limit (k + 1)) {w : Nat}
    (hstep : g.Step d u w) :
    Sound g d limit start (s.meet (k + 1) w) ∧ (s.meet (k + 1) w).Met w ∧
      ∃ rest', (s.meet (k + 1) w).queue = (u, k) :: rest' := by
  rcases meet_cases (k + 1) s w with ⟨hw, heq⟩ | ⟨hw, heq⟩
  · rw [heq]
    exact ⟨h, hw, rest, hq⟩
  · have hdist := h.isDistance_of_not_met hg hq hk hstep hw
    have hmet : ∀ j, (s.meet (k + 1) w).Met j ↔ j = w ∨ s.Met j := by
      intro j
      rw [heq]
      exact met_setIfInBounds hw
    have hhead : (u, k) ∈ s.queue := by rw [hq]; exact List.mem_cons_self
    have hnew : w ≠ start ∧ w ∉ s.found := by
      constructor
      · exact fun he => hw ((h.met_iff w).mpr (Or.inr (Or.inl he)))
      · exact fun he => hw ((h.met_iff w).mpr (Or.inr (Or.inr he)))
    refine ⟨?_, (hmet w).mpr (Or.inl rfl), rest ++ [(w, k + 1)], by rw [heq, hq]; rfl⟩
    refine
      { met_iff := ?_, nodup := ?_, start_not_mem := ?_, found_spec := ?_, found_sorted := ?_,
        queue_mem := ?_, queue_dist := ?_, queue_sorted := ?_, found_le := ?_, closed := ?_ }
    · intro i
      rw [hmet, h.met_iff, heq]
      simp only [List.mem_cons]
      tauto
    · rw [heq]
      exact List.nodup_cons.mpr ⟨hnew.2, h.nodup⟩
    · rw [heq]
      simpa [Ne.symm hnew.1] using h.start_not_mem
    · rw [heq]
      intro i hi
      rcases List.mem_cons.mp hi with rfl | hi
      · exact ⟨(hg.step_lt hstep).2, k + 1, hdist, hk⟩
      · exact h.found_spec i hi
    · rw [heq]
      refine List.pairwise_cons.mpr ⟨?_, h.found_sorted⟩
      intro j hj n m hn hm
      rw [hn.unique hdist]
      exact h.found_le j hj m hm (u, k) hhead
    · rw [heq]
      intro q hmem
      rcases List.mem_append.mp hmem with hmem | hmem
      · rcases h.queue_mem q hmem with hstart | hfound
        · exact Or.inl hstart
        · exact Or.inr (List.mem_cons_of_mem w hfound)
      · rw [List.mem_singleton.mp hmem]
        exact Or.inr List.mem_cons_self
    · rw [heq]
      intro q hmem
      rcases List.mem_append.mp hmem with hmem | hmem
      · exact h.queue_dist q hmem
      · rw [List.mem_singleton.mp hmem]
        exact hdist
    · rw [heq]
      refine List.pairwise_append.mpr ⟨h.queue_sorted, List.pairwise_singleton _ _, ?_⟩
      intro q hmem r hr
      rw [List.mem_singleton.mp hr]
      exact h.le_head_succ hq hmem
    · rw [heq]
      intro i hi n hn q hmem
      have hn' : n ≤ k + 1 := by
        rcases List.mem_cons.mp hi with rfl | hi
        · rw [hn.unique hdist]
        · exact h.found_le i hi n hn (u, k) hhead
      rcases List.mem_append.mp hmem with hmem | hmem
      · have hle := h.head_le hq hmem
        omega
      · rw [List.mem_singleton.mp hmem]
        omega
    · intro i hi
      have hqueue : (s.meet (k + 1) w).queue = s.queue ++ [(w, k + 1)] := by rw [heq]
      have hfound : (s.meet (k + 1) w).found = w :: s.found := by rw [heq]
      rw [hqueue]
      rw [hfound, List.mem_cons] at hi
      rcases (show i = w ∨ i = start ∨ i ∈ s.found by tauto) with rfl | hi
      · exact Or.inl ⟨k + 1, List.mem_append_right _ (List.mem_singleton_self _)⟩
      · rcases h.closed i hi with ⟨n, hmem⟩ | hexp
        · exact Or.inl ⟨n, List.mem_append_left _ hmem⟩
        · exact Or.inr fun n hn hlim j hj => (hmet j).mpr (Or.inr (hexp n hn hlim j hj))

/-! ### Expanding a position -/

/-- Met positions stay met. -/
theorem Met.meet {i : Nat} (h : s.Met i) (k w : Nat) : (s.meet k w).Met i := by
  rcases meet_cases k s w with ⟨_, heq⟩ | ⟨hw, heq⟩
  · rw [heq]
    exact h
  · rw [heq]
    exact (met_setIfInBounds hw).mpr (Or.inr h)

theorem Met.foldl_meet {i : Nat} (h : s.Met i) (k : Nat) (ws : List Nat) :
    (ws.foldl (Search.meet k) s).Met i := by
  induction ws generalizing s with
  | nil => exact h
  | cons w ws ih => exact ih (h.meet k w)

theorem Sound.foldl_meet (hg : g.WellFormed) (h : Sound g d limit start s) {u k : Nat}
    {rest : List (Nat × Nat)} (hq : s.queue = (u, k) :: rest) (hk : Within limit (k + 1))
    {ws : List Nat} (hws : ∀ w ∈ ws, g.Step d u w) :
    Sound g d limit start (ws.foldl (Search.meet (k + 1)) s) ∧
      (∀ w ∈ ws, (ws.foldl (Search.meet (k + 1)) s).Met w) ∧
      ∃ rest', (ws.foldl (Search.meet (k + 1)) s).queue = (u, k) :: rest' := by
  induction ws generalizing s rest with
  | nil => exact ⟨h, fun w hw => absurd hw List.not_mem_nil, rest, hq⟩
  | cons w ws ih =>
      obtain ⟨hsound, hmet, rest', hq'⟩ := h.meet hg hq hk (hws w List.mem_cons_self)
      obtain ⟨hsound', hmet', hq''⟩ :=
        ih hsound hq' fun v hv => hws v (List.mem_cons_of_mem w hv)
      refine ⟨hsound', ?_, hq''⟩
      intro v hv
      rcases List.mem_cons.mp hv with rfl | hv
      · exact hmet.foldl_meet (k + 1) ws
      · exact hmet' v hv

/-- A position leaves the queue when its neighbours have been met, or when the
limit forbids to look at them. -/
theorem Sound.pop (h : Sound g d limit start s) {u k : Nat} {rest : List (Nat × Nat)}
    (hq : s.queue = (u, k) :: rest)
    (hexp : Within limit (k + 1) → ∀ j, g.Step d u j → s.Met j) :
    Sound g d limit start { s with queue := rest } := by
  have hsub : ∀ q ∈ rest, q ∈ s.queue := fun q hmem => by rw [hq]; exact List.mem_cons_of_mem _ hmem
  have hsorted := h.queue_sorted
  rw [hq] at hsorted
  refine
    { met_iff := h.met_iff, nodup := h.nodup, start_not_mem := h.start_not_mem,
      found_spec := h.found_spec, found_sorted := h.found_sorted,
      queue_mem := fun q hmem => h.queue_mem q (hsub q hmem),
      queue_dist := fun q hmem => h.queue_dist q (hsub q hmem),
      queue_sorted := hsorted.tail,
      found_le := fun i hi n hn q hmem => h.found_le i hi n hn q (hsub q hmem),
      closed := ?_ }
  intro i hi
  rcases h.closed i hi with ⟨n, hmem⟩ | hdone
  · rw [hq] at hmem
    rcases List.mem_cons.mp hmem with heq | hmem
    · obtain ⟨rfl, rfl⟩ := Prod.mk.inj heq
      have hu := h.queue_dist (i, n) (by rw [hq]; exact List.mem_cons_self)
      refine Or.inr fun m hm hlim => hexp ?_
      obtain rfl : m = n := hm.unique hu
      exact hlim
    · exact Or.inl ⟨n, hmem⟩
  · exact Or.inr hdone

/-- One expansion, as `run` does it. -/
def expand (g : Graph) (d : Direction) (s : Search) (u k : Nat) (rest : List (Nat × Nat)) :
    Search :=
  (g.neighbours d u).foldl (Search.meet (k + 1)) { s with queue := rest }

/-- Expanding keeps the invariant. The neighbours are met while the position still
waits, so that everything as near as it counts as met, and it leaves the queue
afterwards. -/
theorem Sound.expand (hg : g.WellFormed) (h : Sound g d limit start s) {u k : Nat}
    {rest : List (Nat × Nat)} (hq : s.queue = (u, k) :: rest) (hk : Within limit (k + 1)) :
    Sound g d limit start (s.expand g d u k rest) := by
  obtain ⟨hsound, hmet, _⟩ :=
    h.foldl_meet hg hq hk fun w hw => mem_neighbours.mp hw
  have hs : s = { ({ s with queue := rest } : Search) with queue := (u, k) :: rest } := by
    rw [← hq]
  have hfold : (g.neighbours d u).foldl (Search.meet (k + 1)) s =
      { s.expand g d u k rest with queue := (u, k) :: (s.expand g d u k rest).queue } := by
    conv_lhs => rw [hs]
    exact foldl_meet_cons (k + 1) (u, k) (g.neighbours d u) { s with queue := rest }
  rw [hfold] at hsound hmet
  exact hsound.pop rfl fun _ j hj => hmet j (mem_neighbours.mpr hj)

/-! ### Whole searches -/

/-- What `run` does: stop at an empty queue, else pass over or expand the next
position. -/
theorem run_succ (g : Graph) (d : Direction) (limit : Option Nat) (fuel : Nat) (s : Search) :
    run g d limit (fuel + 1) s =
      match s.queue with
      | [] => s
      | (u, k) :: rest =>
          if limit.any (· ≤ k) then run g d limit fuel { s with queue := rest }
          else run g d limit fuel (s.expand g d u k rest) := by
  conv_lhs => unfold run
  rfl

theorem length_expand (g : Graph) (d : Direction) {s : Search} {u k : Nat}
    {rest : List (Nat × Nat)} (hq : s.queue = (u, k) :: rest) :
    (s.expand g d u k rest).queue.length + 1 + s.found.length =
      s.queue.length + (s.expand g d u k rest).found.length := by
  have hfold := length_foldl_meet (k + 1) (g.neighbours d u) { s with queue := rest }
  rw [hq, List.length_cons]
  unfold expand
  dsimp only at hfold
  omega

/-- Nothing is found twice, so no more is found than the graph holds. -/
theorem Sound.length_found (h : Sound g d limit start s) : s.found.length ≤ g.entityCount := by
  have hsub : s.found ⊆ List.range g.entityCount :=
    fun i hi => List.mem_range.mpr (h.found_spec i hi).1
  simpa using (List.subperm_of_subset h.nodup hsub).length_le

/-- **A search keeps the invariant and ends by itself**: as long as the expansions
still allowed cover what waits and what may yet be found, the queue runs empty. -/
theorem Sound.run (hg : g.WellFormed) (h : Sound g d limit start s) {fuel : Nat}
    (hfuel : s.queue.length + g.entityCount ≤ fuel + s.found.length) :
    Sound g d limit start (Search.run g d limit fuel s) ∧
      (Search.run g d limit fuel s).queue = [] := by
  induction fuel generalizing s with
  | zero =>
      have hlen := h.length_found
      refine ⟨h, List.length_eq_zero_iff.mp ?_⟩
      rw [Search.run]
      omega
  | succ fuel ih =>
      rw [run_succ]
      cases hq : s.queue with
      | nil => exact ⟨h, hq⟩
      | cons q rest =>
          obtain ⟨u, k⟩ := q
          dsimp only
          cases hlim : limit.any (· ≤ k) with
          | true =>
              rw [if_pos rfl]
              refine ih (h.pop hq fun hk => ?_) ?_
              · rw [within_succ_iff, hlim] at hk
                cases hk
              · rw [hq, List.length_cons] at hfuel
                dsimp only
                omega
          | false =>
              rw [if_neg Bool.false_ne_true]
              refine ih (h.expand hg hq (within_succ_iff.mpr hlim)) ?_
              have hlen := length_expand g d hq
              omega

/-- An empty queue ends a search, however many expansions are left. -/
theorem run_of_queue_nil {s : Search} (hq : s.queue = []) (fuel : Nat) :
    run g d limit fuel s = s := by
  cases fuel with
  | zero => rfl
  | succ fuel => rw [run_succ, hq]

theorem run_add (s : Search) (m n : Nat) :
    run g d limit (m + n) s = run g d limit n (run g d limit m s) := by
  induction m generalizing s with
  | zero => rw [Nat.zero_add]; rfl
  | succ m ih =>
      rw [Nat.succ_add, run_succ, run_succ]
      cases hq : s.queue with
      | nil => exact (run_of_queue_nil hq n).symm
      | cons q rest =>
          dsimp only
          split
          · exact ih _
          · exact ih _

/-- With an empty queue, the invariant says that the search is complete. -/
theorem Sound.mem_of_within (hg : g.WellFormed) (h : Sound g d limit start s) (hq : s.queue = [])
    {m i : Nat} (p : g.Path d start m i) (hm : Within limit m) : i = start ∨ i ∈ s.found := by
  induction p with
  | nil => exact Or.inl rfl
  | @snoc m i j p hstep ih =>
      obtain ⟨n, hnm, hn⟩ := p.exists_isDistance
      refine h.mem_of_met ?_ (hg.step_lt hstep).2
      rcases h.closed i (ih (hm.mono (Nat.le_succ m))) with ⟨k, hmem⟩ | hexp
      · rw [hq] at hmem
        cases hmem
      · exact hexp n hn (hm.mono (Nat.succ_le_succ hnm)) j hstep

/-! ### Limits cut the search short -/

theorem found_suffix_foldl_meet (k : Nat) (ws : List Nat) (s : Search) :
    s.found <:+ (ws.foldl (meet k) s).found := by
  induction ws generalizing s with
  | nil => exact List.suffix_refl s.found
  | cons w ws ih => exact (found_suffix_meet k s w).trans (ih (s.meet k w))

theorem found_suffix_run (fuel : Nat) (s : Search) :
    s.found <:+ (run g d limit fuel s).found := by
  induction fuel generalizing s with
  | zero => exact List.suffix_refl s.found
  | succ fuel ih =>
      rw [run_succ]
      split
      · exact List.suffix_refl s.found
      · rename_i u k rest _
        split
        · exact ih { s with queue := rest }
        · exact (found_suffix_foldl_meet (k + 1) _ { s with queue := rest }).trans (ih _)

/-- Where all that waits has reached the limit, nothing more is found. -/
theorem found_run_of_limit {m : Nat} (fuel : Nat) {s : Search} (h : ∀ q ∈ s.queue, m ≤ q.2) :
    (run g d (some m) fuel s).found = s.found := by
  induction fuel generalizing s with
  | zero => rfl
  | succ fuel ih =>
      rw [run_succ]
      cases hq : s.queue with
      | nil => rfl
      | cons q rest =>
          rw [hq] at h
          have hm : m ≤ q.2 := h q List.mem_cons_self
          have hrest := ih (s := { s with queue := rest })
            fun r hr => h r (List.mem_cons_of_mem q hr)
          simpa [hm] using hrest

/-- A limited search does what the unlimited one does until the first position at
the limit is next; from then on everything that waits is at the limit. -/
theorem Sound.found_run_suffix (hg : g.WellFormed) (h : Sound g d none start s) (m fuel : Nat) :
    (Search.run g d (some m) fuel s).found <:+ (Search.run g d none fuel s).found := by
  induction fuel generalizing s with
  | zero => exact List.suffix_refl s.found
  | succ fuel ih =>
      rw [run_succ, run_succ]
      cases hq : s.queue with
      | nil => exact List.suffix_refl s.found
      | cons q rest =>
          obtain ⟨u, k⟩ := q
          by_cases hm : m ≤ k
          · have hall : ∀ q ∈ rest, m ≤ q.2 := fun q hmem =>
              Nat.le_trans hm (h.head_le hq (by rw [hq]; exact List.mem_cons_of_mem _ hmem))
            have hfound :=
              found_run_of_limit (g := g) (d := d) fuel (s := { s with queue := rest }) hall
            have hsuffix : s.found <:+ (Search.run g d none fuel (s.expand g d u k rest)).found :=
              (found_suffix_foldl_meet (k + 1) _ { s with queue := rest }).trans
                (found_suffix_run fuel _)
            simpa [hm, hfound] using hsuffix
          · simpa [hm] using ih (h.expand hg hq fun n hn => by cases hn)

end Search

/-- The search that `reachable` starts. -/
def searchFrom (g : Graph) (start : Nat) : Search where
  queue := [(start, 0)]
  seen := (Array.replicate g.entityCount false).setIfInBounds start true
  found := []

theorem reachable_eq (g : Graph) (d : Direction) (limit : Option Nat) (start : Nat) :
    g.reachable d limit start =
      (Search.run g d limit (g.entityCount + 1) (g.searchFrom start)).found.reverse := rfl

theorem met_searchFrom {g : Graph} {start i : Nat} :
    (g.searchFrom start).Met i ↔ g.entityCount ≤ i ∨ i = start := by
  unfold Search.Met searchFrom
  rw [Array.getElem?_setIfInBounds, Array.getElem?_replicate, Array.size_replicate]
  by_cases hi : i < g.entityCount
  · by_cases his : start = i
    · subst his
      simp [hi]
    · simp [hi, his, Ne.symm his]
  · by_cases his : start = i
    · subst his
      simp [hi]
    · simp [hi, his]
      omega

/-- The search starts with its start alone, at distance zero. -/
theorem sound_searchFrom (g : Graph) (d : Direction) (limit : Option Nat) (start : Nat) :
    Search.Sound g d limit start (g.searchFrom start) where
  met_iff := fun i => by rw [met_searchFrom]; simp [searchFrom]
  nodup := List.nodup_nil
  start_not_mem := List.not_mem_nil
  found_spec := fun i hi => absurd hi List.not_mem_nil
  found_sorted := List.Pairwise.nil
  queue_mem := fun q hq => Or.inl (by rw [List.mem_singleton.mp hq])
  queue_dist := fun q hq => by
    rw [List.mem_singleton.mp hq]
    exact isDistance_start
  queue_sorted := List.pairwise_singleton _ _
  found_le := fun i hi => absurd hi List.not_mem_nil
  closed := by
    rintro i (rfl | hi)
    · exact Or.inl ⟨0, List.mem_singleton_self _⟩
    · exact absurd hi List.not_mem_nil

theorem WellFormed.sound_run {g : Graph} (hg : g.WellFormed) (d : Direction) (limit : Option Nat)
    (start : Nat) :
    let s := Search.run g d limit (g.entityCount + 1) (g.searchFrom start)
    Search.Sound g d limit start s ∧ s.queue = [] := by
  refine (sound_searchFrom g d limit start).run hg ?_
  simp only [searchFrom, List.length_singleton, List.length_nil]
  omega

theorem WellFormed.nodup_reachable {g : Graph} (hg : g.WellFormed) (d : Direction)
    (limit : Option Nat) (start : Nat) : (g.reachable d limit start).Nodup := by
  rw [reachable_eq, List.nodup_reverse]
  exact (hg.sound_run d limit start).1.nodup

/-- What is reached, said without the search: the ends of paths within the limit,
the start apart. -/
theorem WellFormed.mem_reachable_iff {g : Graph} (hg : g.WellFormed) {d : Direction}
    {limit : Option Nat} {start i : Nat} :
    i ∈ g.reachable d limit start ↔ i ≠ start ∧ ∃ k, g.Path d start k i ∧ Within limit k := by
  obtain ⟨h, hq⟩ := hg.sound_run d limit start
  rw [reachable_eq, List.mem_reverse]
  constructor
  · intro hi
    obtain ⟨_, k, hk, hlim⟩ := h.found_spec i hi
    exact ⟨fun he => h.start_not_mem (he ▸ hi), k, hk.path, hlim⟩
  · intro hi
    obtain ⟨hne, k, p, hlim⟩ := hi
    exact (h.mem_of_within hg hq p hlim).resolve_left hne

/-- **Reachability is exact**, on every graph, with cycles and self-calls, in both
directions and under every limit:

* more expansions than it allows itself would find nothing else;
* it finds exactly the positions, other than the start, whose distance from the
  start is at least one and within the limit, each of them once;
* it finds them in order of their distance;
* a limited search finds the first part of what an unlimited one finds. -/
theorem reachable_exact {g : Graph} (hg : g.WellFormed) (d : Direction) (limit : Option Nat)
    (start : Nat) :
    (∀ fuel ≥ g.entityCount + 1,
      (Search.run g d limit fuel (g.searchFrom start)).found.reverse =
        g.reachable d limit start) ∧
    (g.reachable d limit start).Nodup ∧
    (∀ i, i ∈ g.reachable d limit start ↔
      i ≠ start ∧ ∃ k, g.IsDistance d start i k ∧ 1 ≤ k ∧ ∀ m, limit = some m → k ≤ m) ∧
    start ∉ g.reachable d limit start ∧
    ((g.reachable d limit start).Pairwise fun i j =>
      ∀ k m, g.IsDistance d start i k → g.IsDistance d start j m → k ≤ m) ∧
    ∀ m, g.reachable d (some m) start <+: g.reachable d none start := by
  obtain ⟨h, hq⟩ := hg.sound_run d limit start
  simp only [reachable_eq]
  refine ⟨?_, List.nodup_reverse.mpr h.nodup, ?_, ?_, ?_, ?_⟩
  · intro fuel hfuel
    obtain ⟨more, rfl⟩ := Nat.exists_eq_add_of_le hfuel
    rw [Search.run_add, Search.run_of_queue_nil hq]
  · intro i
    rw [List.mem_reverse]
    constructor
    · intro hi
      have hne : i ≠ start := fun he => h.start_not_mem (he ▸ hi)
      obtain ⟨_, k, hk, hlim⟩ := h.found_spec i hi
      exact ⟨hne, k, hk, hk.pos hne, hlim⟩
    · intro h
      obtain ⟨hne, k, hk, _, hlim⟩ := h
      exact (h.mem_of_within hg hq hk.path hlim).resolve_left hne
  · rw [List.mem_reverse]
    exact h.start_not_mem
  · rw [List.pairwise_reverse]
    exact h.found_sorted.imp fun hij k m hk hm => hij m k hm hk
  · intro m
    rw [List.reverse_prefix]
    exact (sound_searchFrom g d none start).found_run_suffix hg m (g.entityCount + 1)

/-- The short cut of the ring is found before the way around. -/
theorem reachable_exact_ring :
    ring.WellFormed ∧ ring.reachable .downstream none 0 = [1, 3, 2] ∧
      ring.IsDistance .downstream 0 3 1 := by
  have hg : ring.WellFormed := wellFormed_ofInsertions _ _
  have hmem : 3 ∈ ring.reachable .downstream (some 1) 0 := by decide +kernel
  obtain ⟨_, k, hk, hpos, hle⟩ := ((reachable_exact hg .downstream (some 1) 0).2.2.1 3).mp hmem
  obtain rfl : k = 1 := Nat.le_antisymm (hle 1 rfl) hpos
  exact ⟨hg, by decide +kernel, hk⟩

end CallAtlas.Graph
