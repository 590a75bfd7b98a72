import Mathlib.Data.List.Basic
import CallAtlas.Impact.Analyzer

/-!
# A cache does not show

An analyzer that keeps what it found answers every question as if it kept nothing.
**What a cache holds is true** (`Sound`): the positions under a key are those that are
reached. A new cache holds nothing, and a cache that is used correctly gains nothing but
what was just computed, so the cache stays sound from one question to the next. Whether
something is found again or computed again then makes no difference.

Nothing is asked of a cache but that it makes no values up (`Cache.Lawful`): it may drop
any entry at any time, also one that it was just given.
-/

namespace CallAtlas

/-! ### What a cache must not do -/

/-- `holds` says what a cache may answer with. A cache makes nothing up: it starts with
nothing, answers with what it holds or what was computed for it, and holds afterwards
only what it held before and the answer it gave. It may hold less than that, so entries
can be dropped at any time. -/
structure Cache.Lawful {κ ν : Type} (C : Cache κ ν) (holds : C.State → κ → ν → Prop) : Prop where
  new : ∀ capacity k v, ¬ holds (C.new capacity) k v
  answer : ∀ cache k compute,
    (C.getWith cache k compute).1 = compute () ∨ holds cache k (C.getWith cache k compute).1
  held : ∀ cache k compute k' v, holds (C.getWith cache k compute).2 k' v →
    holds cache k' v ∨ (k' = k ∧ v = (C.getWith cache k compute).1)

theorem Recent.mem_of_mem_drop {κ ν : Type} {r : Recent κ ν} {dropped : κ → Bool} {entry : κ × ν}
    (h : entry ∈ (r.drop dropped).entries) : entry ∈ r.entries :=
  List.mem_of_mem_filter h

/-- A cache of recent values makes nothing up, whatever it is told to drop. -/
theorem Cache.recent_lawful {κ ν : Type} [DecidableEq κ] (drops : Nat → κ → Bool) :
    (Cache.recent κ ν drops).Lawful fun r k v => (k, v) ∈ r.entries where
  new := fun capacity k v h => by cases h
  answer := by
    intro r k compute
    change ((r.drop (drops r.uses)).entries.lookup k).getD (compute ()) = _ ∨ _
    cases hfound : (r.drop (drops r.uses)).entries.lookup k with
    | none => exact Or.inl rfl
    | some v =>
        right
        have hvalue : ((Cache.recent κ ν drops).getWith r k compute).1 = v := by
          change ((r.drop (drops r.uses)).entries.lookup k).getD (compute ()) = v
          rw [hfound, Option.getD_some]
        obtain ⟨before, after, hsplit, _⟩ := List.lookup_eq_some_iff.mp hfound
        rw [hvalue]
        apply Recent.mem_of_mem_drop
        rw [hsplit]
        simp
  held := by
    intro r k compute k' v h
    rcases List.mem_cons.mp (List.mem_of_mem_take h) with heq | hmem
    · exact Or.inr (Prod.mk.inj heq)
    · exact Or.inl (Recent.mem_of_mem_drop (Recent.mem_of_mem_drop hmem))

/-! ### Sound caches -/

namespace Analyzer

variable {C : ReachCache} {holds : C.State → Nat × Direction → List Nat → Prop}
  {g : Graph} {s : ImpactSettings}

/-- What a cache holds of a graph is what is reached in it. -/
def Sound (holds : C.State → Nat × Direction → List Nat → Prop) (g : Graph) (s : ImpactSettings)
    (cache : C.State) : Prop :=
  ∀ i d nodes, holds cache (i, d) nodes → nodes = g.reachable d s.maxDepth i

/-- Work that gives one result, whatever true things the cache holds, and leaves nothing
but true things in it. -/
def Gives {α : Type} (holds : C.State → Nat × Direction → List Nat → Prop) (g : Graph)
    (s : ImpactSettings) (work : Cached C α) (result : Except GraphFailure α) : Prop :=
  ∀ cache, Sound holds g s cache →
    (work.run.run cache).1 = result ∧ Sound holds g s (work.run.run cache).2

theorem gives_pure {α : Type} (a : α) : Gives holds g s (pure a) (.ok a) :=
  fun _ hcache => ⟨rfl, hcache⟩

theorem gives_ofExcept {α : Type} (result : Except GraphFailure α) :
    Gives holds g s (MonadExcept.ofExcept result) result := by
  intro cache hcache
  cases result with
  | ok a => exact ⟨rfl, hcache⟩
  | error failure => exact ⟨rfl, hcache⟩

theorem Gives.bind {α β : Type} {work : Cached C α} {result : Except GraphFailure α}
    {next : α → Cached C β} {results : α → Except GraphFailure β}
    (h : Gives holds g s work result)
    (hnext : ∀ a, result = .ok a → Gives holds g s (next a) (results a)) :
    Gives holds g s (work >>= next) (result >>= results) := by
  intro cache hcache
  obtain ⟨hresult, hsound⟩ := h cache hcache
  rw [ExceptT.run_bind, StateT.run_bind]
  rcases hrun : work.run.run cache with ⟨found, after⟩
  rw [hrun] at hresult hsound
  subst hresult
  cases found with
  | error failure => exact ⟨rfl, hsound⟩
  | ok a => exact hnext a rfl after hsound

/-- Work that cannot fail is followed by the rest with its result. -/
theorem Gives.bind_ok {α β : Type} {work : Cached C α} {a : α} {next : α → Cached C β}
    {result : Except GraphFailure β} (h : Gives holds g s work (.ok a))
    (hnext : Gives holds g s (next a) result) : Gives holds g s (work >>= next) result := by
  have hbind : Gives holds g s (work >>= next) (Except.ok a >>= fun _ => result) := by
    refine h.bind ?_
    rintro _ ⟨⟩
    exact hnext
  exact hbind

theorem Gives.map {α β : Type} {work : Cached C α} {result : Except GraphFailure α}
    (h : Gives holds g s work result) (f : α → β) :
    Gives holds g s (f <$> work) (result.map f) := by
  change Gives holds g s (f <$> work) (f <$> result)
  rw [map_eq_pure_bind, map_eq_pure_bind]
  exact h.bind fun a _ => gives_pure (f a)

variable (hC : C.Lawful holds)

include hC

theorem gives_reached (d : Direction) (i : Nat) :
    Gives holds g s (reached C g s d i) (.ok (g.reachable d s.maxDepth i)) := by
  intro cache hcache
  have hanswer : (C.getWith cache (i, d) fun _ => g.reachable d s.maxDepth i).1 =
      g.reachable d s.maxDepth i := by
    rcases hC.answer cache (i, d) fun _ => g.reachable d s.maxDepth i with hnew | hheld
    · exact hnew
    · exact hcache i d _ hheld
  refine ⟨congrArg Except.ok hanswer, ?_⟩
  intro j d' nodes hheld
  rcases hC.held cache (i, d) _ (j, d') nodes hheld with hbefore | ⟨hkey, rfl⟩
  · exact hcache j d' nodes hbefore
  · cases hkey
    exact hanswer

theorem gives_transitive (d : Direction) (id : String) :
    Gives holds g s (transitive C g s d id) (g.transitive s d id) := by
  change Gives holds g s _ (g.transitiveAt s d <$> g.locate id)
  rw [map_eq_pure_bind]
  exact (gives_ofExcept _).bind fun i _ => (gives_reached hC d i).bind_ok (gives_pure _)

theorem gives_assess (i : Nat) : Gives holds g s (assess C g s i) (.ok (g.riskAt s i)) :=
  (gives_reached hC .upstream i).bind_ok ((gives_reached hC .downstream i).bind_ok (gives_pure _))

theorem gives_risk (id : String) : Gives holds g s (risk C g s id) (g.risk s id) := by
  change Gives holds g s _ (g.riskAt s <$> g.locate id)
  rw [map_eq_pure_bind]
  exact (gives_ofExcept _).bind fun i _ => gives_assess hC i

theorem gives_impact (id : String) : Gives holds g s (impact C g s id) (g.impact s id) := by
  refine (gives_ofExcept _).bind fun i _ => (gives_reached hC .upstream i).bind_ok ?_
  refine (gives_ofExcept _).bind fun callers _ => (gives_ofExcept _).bind fun callees _ => ?_
  refine (gives_reached hC .downstream i).bind_ok ?_
  exact (gives_assess hC i).bind_ok (gives_pure _)

theorem gives_answer (q : ImpactQuestion) :
    Gives holds g s (answer C g s q) (g.answer s q) := by
  cases q with
  | ancestors id => exact (gives_transitive hC .upstream id).map _
  | descendants id => exact (gives_transitive hC .downstream id).map _
  | risk id => exact (gives_risk hC id).map _
  | complexity id => exact (gives_ofExcept _).map _
  | impact id => exact (gives_impact hC id).map _
  | complexitySummary => exact gives_pure _

/-- One question is answered as without a cache, and the next one can be. -/
theorem ask_spec {a : Analyzer C} (ha : Sound holds a.graph a.settings a.cache)
    (q : ImpactQuestion) :
    (a.ask q).1 = a.graph.answer a.settings q ∧
      Sound holds (a.ask q).2.graph (a.ask q).2.settings (a.ask q).2.cache :=
  gives_answer hC q a.cache ha

theorem askAll_eq {a : Analyzer C} (ha : Sound holds a.graph a.settings a.cache)
    (qs : List ImpactQuestion) : a.askAll qs = qs.map (a.graph.answer a.settings) := by
  induction qs generalizing a with
  | nil => rfl
  | cons q qs ih =>
      obtain ⟨hanswer, hsound⟩ := ask_spec hC ha q
      change (a.ask q).1 :: (a.ask q).2.askAll qs = _
      rw [hanswer, ih hsound]
      rfl

theorem sound_new (g : Graph) (s : ImpactSettings) : Sound holds g s (new C g s).cache :=
  fun _ _ _ hheld => absurd hheld (hC.new _ _ _)

/-- **A cache does not show.** An analyzer answers every sequence of questions as one
without a cache does, whatever cache it has and whenever that drops something. -/
theorem askAll_new (g : Graph) (s : ImpactSettings) (qs : List ImpactQuestion) :
    (new C g s).askAll qs = qs.map (g.answer s) :=
  askAll_eq hC (sound_new hC g s) qs

theorem ask_new (g : Graph) (s : ImpactSettings) (q : ImpactQuestion) :
    ((new C g s).ask q).1 = g.answer s q :=
  (ask_spec hC (sound_new hC g s) q).1

end Analyzer

end CallAtlas
