import Mathlib.Data.List.DropRight
import CallAtlas.Ignore.Policy

/-!
# Stricter ignore rules

The last rule that applies to a path decides about it, and where none applies, the nearest
folder above that some rule applies to. So one rule more can change which folder decides, and
not only what is said about it. **It still can only change the answer one way.** About every
path, the rules with a further rule that ignores say the same as before or that the path is
ignored; and this survives the way up (`Stricter.firstVerdict?`), since whoever is asked first
either says so or is asked in both cases.

A rule that takes paths back in is the same thing seen from the other side, but only at the
end, where nothing overrules it.
-/

namespace CallAtlas

/-! ### What further rules say -/

/-- Later rules overrule earlier ones. -/
theorem verdict?_append (before after : List IgnoreRule) (path : List UInt8) (isFolder : Bool) :
    verdict? (before ++ after) path isFolder =
      (verdict? after path isFolder).or (verdict? before path isFolder) := by
  unfold verdict?
  rw [List.reverse_append, List.find?_append, Option.map_or]

theorem verdict?_eq_some {rules : List IgnoreRule} {path : List UInt8} {isFolder : Bool}
    {v : Verdict} (h : verdict? rules path isFolder = some v) :
    ∃ r ∈ rules, v = if r.readmits then .readmitted else .ignored := by
  obtain ⟨r, hr, rfl⟩ := Option.map_eq_some_iff.mp h
  exact ⟨r, List.mem_reverse.mp (List.mem_of_find?_eq_some hr), rfl⟩

/-- Rules that take nothing back in say of a path that it is ignored, or nothing. -/
theorem verdict?_of_forall_not_readmits {rules : List IgnoreRule}
    (h : ∀ r ∈ rules, r.readmits = false) (path : List UInt8) (isFolder : Bool) :
    verdict? rules path isFolder = none ∨ verdict? rules path isFolder = some .ignored := by
  cases hv : verdict? rules path isFolder with
  | none => exact .inl rfl
  | some v =>
      obtain ⟨r, hr, rfl⟩ := verdict?_eq_some hv
      rw [h r hr]
      exact .inr rfl

/-- Rules that only take paths back in say so of a path, or nothing. -/
theorem verdict?_of_forall_readmits {rules : List IgnoreRule}
    (h : ∀ r ∈ rules, r.readmits = true) (path : List UInt8) (isFolder : Bool) :
    verdict? rules path isFolder = none ∨ verdict? rules path isFolder = some .readmitted := by
  cases hv : verdict? rules path isFolder with
  | none => exact .inl rfl
  | some v =>
      obtain ⟨r, hr, rfl⟩ := verdict?_eq_some hv
      rw [h r hr]
      exact .inr rfl

/-! ### Stricter rules -/

/-- About every path the two lists of rules say the same, or the strict ones say that it is
ignored, or the loose ones that it is taken back in. -/
def Stricter (strict loose : List IgnoreRule) : Prop :=
  ∀ path isFolder, verdict? strict path isFolder = verdict? loose path isFolder ∨
    verdict? strict path isFolder = some .ignored ∨ verdict? loose path isFolder = some .readmitted

/-- Rules that take nothing back in may stand anywhere. -/
theorem stricter_insert {added : List IgnoreRule} (h : ∀ r ∈ added, r.readmits = false)
    (before after : List IgnoreRule) : Stricter (before ++ added ++ after) (before ++ after) := by
  intro path isFolder
  rw [verdict?_append, verdict?_append, verdict?_append]
  cases verdict? after path isFolder with
  | some v => exact .inl rfl
  | none =>
      rw [Option.none_or, Option.none_or]
      rcases verdict?_of_forall_not_readmits h path isFolder with hadded | hadded
      · rw [hadded]
        exact .inl rfl
      · rw [hadded]
        exact .inr (.inl rfl)

/-- Rules that take paths back in stand at the end. -/
theorem stricter_append {added : List IgnoreRule} (h : ∀ r ∈ added, r.readmits = true)
    (rules : List IgnoreRule) : Stricter rules (rules ++ added) := by
  intro path isFolder
  rw [verdict?_append]
  rcases verdict?_of_forall_readmits h path isFolder with hadded | hadded
  · rw [hadded]
    exact .inl rfl
  · rw [hadded]
    exact .inr (.inr rfl)

/-- What loose rules ignore, by itself or with a folder above it, strict rules ignore. -/
theorem Stricter.firstVerdict? {strict loose : List IgnoreRule} (h : Stricter strict loose)
    {paths : List (List UInt8)} {isFolder : Bool}
    (hloose : firstVerdict? loose isFolder paths = some .ignored) :
    firstVerdict? strict isFolder paths = some .ignored := by
  induction paths generalizing isFolder with
  | nil => cases hloose
  | cons path parents ih =>
      rw [CallAtlas.firstVerdict?] at hloose ⊢
      rcases h path isFolder with hsame | hignored | hreadmitted
      · -- The same level decides, or both go on to the next one.
        rw [hsame]
        cases hv : verdict? loose path isFolder with
        | none =>
            rw [hv] at hloose
            exact ih hloose
        | some v =>
            rw [hv] at hloose
            exact hloose
      · rw [hignored]
      · rw [hreadmitted] at hloose
        cases hloose

/-! ### Which lines take paths back in -/

namespace IgnoreRule

/-- Does the line start with the mark that takes paths back in? -/
def Readmits (line : String) : Prop := line.toList.head? = some '!'

instance (line : String) : Decidable (Readmits line) := inferInstanceAs (Decidable (_ = _))

theorem isPrefix_trimLine (cs : List Char) : trimLine cs <+: cs := by
  unfold trimLine
  split
  · exact List.prefix_refl cs
  · exact List.rdropWhile_prefix Text.isBlank cs

theorem head?_trimLine {cs : List Char} (h : trimLine cs ≠ []) :
    (trimLine cs).head? = cs.head? := by
  obtain ⟨rest, hrest⟩ := isPrefix_trimLine cs
  have hhead : (trimLine cs ++ rest).head? = (trimLine cs).head? :=
    List.head?_append_of_ne_nil _ h
  rw [hrest] at hhead
  exact hhead.symm

/-- Only the first character says whether a line takes paths back in. -/
theorem dropMarks_fst (cs : List Char) : (dropMarks cs).1 = true ↔ cs.head? = some '!' := by
  unfold dropMarks
  split
  · simp
  · simp
  · cases cs with
    | nil => simp
    | cons c cs =>
        by_cases hmark : c = '!'
        · subst hmark
          dsimp only
          split <;> simp
        · simp only [List.head?_cons, Option.some.injEq, hmark, iff_false, Bool.not_eq_true]
          split
          all_goals
            dsimp only
            split
            · rename_i hcons
              exact absurd (List.cons.inj hcons).1 hmark
            · rfl

theorem readmits_ofLine {line : String} {r : IgnoreRule} (h : ofLine line = .ok (some r)) :
    r.readmits = true ↔ Readmits line := by
  unfold ofLine at h
  dsimp only at h
  split at h
  · cases h
  · split at h
    · cases h
    · rename_i hne
      rw [List.isEmpty_iff] at hne
      split at h
      · cases h
        exact (dropMarks_fst _).trans (by rw [head?_trimLine hne, Readmits])
      · cases h

end IgnoreRule

/-! ### The rules of several patterns -/

theorem rulesOf_cons {pattern : String} {patterns : List String} {rules : List IgnoreRule} :
    rulesOf (pattern :: patterns) = .ok rules ↔
      ∃ rule? rest, IgnoreRule.ofLine pattern = .ok rule? ∧ rulesOf patterns = .ok rest ∧
        rules = rule?.toList ++ rest := by
  rw [rulesOf]
  cases IgnoreRule.ofLine pattern with
  | error defect => simp
  | ok rule? =>
      cases rulesOf patterns with
      | error failure => simp
      | ok rest => simp [eq_comm]

theorem rulesOf_append {patterns more : List String} {rules : List IgnoreRule} :
    rulesOf (patterns ++ more) = .ok rules ↔
      ∃ first second, rulesOf patterns = .ok first ∧ rulesOf more = .ok second ∧
        rules = first ++ second := by
  induction patterns generalizing rules with
  | nil => simp [rulesOf]
  | cons pattern patterns ih =>
      simp only [List.cons_append, rulesOf_cons, ih]
      constructor
      · rintro ⟨rule?, _, hrule, ⟨first, second, hfirst, hsecond, rfl⟩, rfl⟩
        exact ⟨_, second, ⟨rule?, first, hrule, hfirst, rfl⟩, hsecond, (List.append_assoc _ _ _).symm⟩
      · rintro ⟨_, second, ⟨rule?, first, hrule, hfirst, rfl⟩, hsecond, rfl⟩
        exact ⟨rule?, _, hrule, ⟨first, second, hfirst, hsecond, rfl⟩, List.append_assoc _ _ _⟩

/-- A rule takes paths back in where the pattern it comes from does. -/
theorem exists_pattern_of_mem_rulesOf {patterns : List String} {rules : List IgnoreRule}
    (h : rulesOf patterns = .ok rules) {r : IgnoreRule} (hr : r ∈ rules) :
    ∃ pattern ∈ patterns, r.readmits = true ↔ IgnoreRule.Readmits pattern := by
  induction patterns generalizing rules with
  | nil =>
      cases h
      cases hr
  | cons pattern patterns ih =>
      obtain ⟨rule?, rest, hrule, hrest, rfl⟩ := rulesOf_cons.mp h
      rcases List.mem_append.mp hr with hmem | hmem
      · rw [Option.mem_toList] at hmem
        subst hmem
        exact ⟨pattern, List.mem_cons_self, IgnoreRule.readmits_ofLine hrule⟩
      · obtain ⟨p, hp, hiff⟩ := ih hrest hmem
        exact ⟨p, List.mem_cons_of_mem _ hp, hiff⟩

theorem not_readmits_of_rulesOf {patterns : List String} {rules : List IgnoreRule}
    (h : rulesOf patterns = .ok rules) (hpatterns : ∀ p ∈ patterns, ¬ IgnoreRule.Readmits p) :
    ∀ r ∈ rules, r.readmits = false := by
  intro r hr
  obtain ⟨p, hp, hiff⟩ := exists_pattern_of_mem_rulesOf h hr
  rw [← Bool.not_eq_true, hiff]
  exact hpatterns p hp

theorem readmits_of_rulesOf {patterns : List String} {rules : List IgnoreRule}
    (h : rulesOf patterns = .ok rules) (hpatterns : ∀ p ∈ patterns, IgnoreRule.Readmits p) :
    ∀ r ∈ rules, r.readmits = true := by
  intro r hr
  obtain ⟨p, hp, hiff⟩ := exists_pattern_of_mem_rulesOf h hr
  rw [hiff]
  exact hpatterns p hp

end CallAtlas
