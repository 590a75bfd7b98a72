import Mathlib
import CallAtlas.Layout.Engine

/-!
# Computing with machine words

A running program counts in machine words, and its tables have an end. The
operations here say when such a step can be taken: a sum or a difference has to be
a machine word again, a divisor must not be zero, and a table is read and written
only where it has an entry. **A step that cannot be taken has no result**, and then
nothing that needs it has one.

Reading a table needs no definition of its own: `as[i]?` has no result outside of
the table.

A computation with checked steps is compared with the same computation without the
checks. Where every step can be taken, the two agree (`mapM_eq_map`,
`foldlM_eq_foldl`); for a loop the reason is an invariant of the loop.
-/

namespace CallAtlas.Word

variable {β γ : Type}

/-! ### Single steps -/

/-- A difference that must not fall below zero. -/
def minus? (m n : Nat) : Option Nat := if n ≤ m then some (m - n) else none

def quotient? (m n : Nat) : Option Nat := if n = 0 then none else some (m / n)

def remainder? (m n : Nat) : Option Nat := if n = 0 then none else some (m % n)

/-- A quotient rounded up: one more where there is a remainder. -/
def ceilDiv? (m n : Nat) : Option Nat := do
  let q ← quotient? m n
  if (← remainder? m n) = 0 then some q else word? (q + 1)

/-- A coordinate divided by a number of things. -/
def ratio? [Coordinate β] (x : β) (n : Nat) : Option β :=
  if n = 0 then none else some (x / Coordinate.ofNat n)

/-- A table after one of its entries has been replaced. -/
def put? (as : Array β) (i : Nat) (b : β) : Option (Array β) :=
  if i < as.size then some (as.setIfInBounds i b) else none

/-- A running sum. -/
def sum? (ks : List Nat) : Option Nat := ks.foldlM (fun sum k => word? (sum + k)) 0

theorem word?_of_lt {n : Nat} (h : n < 2 ^ 64) : word? n = some n := if_pos h

theorem word?_of_le {n : Nat} (h : 2 ^ 64 ≤ n) : word? n = none := if_neg (Nat.not_lt.mpr h)

theorem minus?_of_le {m n : Nat} (h : n ≤ m) : minus? m n = some (m - n) := if_pos h

theorem quotient?_of_pos {m n : Nat} (h : 0 < n) : quotient? m n = some (m / n) :=
  if_neg (Nat.ne_of_gt h)

theorem remainder?_of_pos {m n : Nat} (h : 0 < n) : remainder? m n = some (m % n) :=
  if_neg (Nat.ne_of_gt h)

theorem ratio?_of_pos [Coordinate β] {n : Nat} (h : 0 < n) (x : β) :
    ratio? x n = some (x / Coordinate.ofNat n) :=
  if_neg (Nat.ne_of_gt h)

theorem put?_of_lt {as : Array β} {i : Nat} (h : i < as.size) (b : β) :
    put? as i b = some (as.setIfInBounds i b) := if_pos h

/-- Inside a table the fallback is not needed. -/
theorem getElem?_eq_some_getD {as : Array β} {i : Nat} (h : i < as.size) (fallback : β) :
    as[i]? = some ((as[i]?).getD fallback) := by
  rw [Array.getElem?_eq_getElem h, Option.getD_some]

/-- The sum that a rounded quotient is often computed from need not be a machine
word, but the rounded quotient is one: it is no larger than what is divided. -/
theorem ceilDiv?_of_pos {m n : Nat} (hm : m < 2 ^ 64) (hn : 0 < n) :
    ceilDiv? m n = some ((m + n - 1) / n) := by
  have hdiv := Nat.div_add_mod m n
  have hmod := Nat.mod_lt m hn
  unfold ceilDiv?
  rw [quotient?_of_pos hn, remainder?_of_pos hn]
  simp only [Option.bind_eq_bind, Option.bind_some]
  split
  · have hsum : m + n - 1 = n - 1 + n * (m / n) := by omega
    have hnone : (n - 1) / n = 0 := Nat.div_eq_of_lt (by omega)
    rw [hsum, Nat.add_mul_div_left _ _ hn, hnone, Nat.zero_add]
  · have hsum : m + n - 1 = m % n - 1 + n * (m / n + 1) := by
      rw [Nat.mul_add, Nat.mul_one]
      omega
    have hnone : (m % n - 1) / n = 0 := Nat.div_eq_of_lt (by omega)
    have hle : m / n ≤ n * (m / n) := Nat.le_mul_of_pos_left _ hn
    rw [hsum, Nat.add_mul_div_left _ _ hn, hnone, Nat.zero_add]
    exact word?_of_lt (by omega)

/-! ### Runs -/

theorem mapM_eq_map {f? : β → Option γ} {f : β → γ} {bs : List β}
    (h : ∀ b ∈ bs, f? b = some (f b)) : bs.mapM f? = some (bs.map f) := by
  induction bs with
  | nil => rfl
  | cons b bs ih =>
      rw [List.mapM_cons, h b List.mem_cons_self, ih fun c hc => h c (List.mem_cons_of_mem b hc)]
      rfl

/-- A loop whose invariant lets it take every step. -/
theorem foldlM_eq_foldl {f? : β → γ → Option β} {f : β → γ → β} (inv : β → Prop) {cs : List γ} :
    ∀ {b : β}, inv b → (∀ b, inv b → ∀ c ∈ cs, f? b c = some (f b c) ∧ inv (f b c)) →
      cs.foldlM f? b = some (cs.foldl f b) := by
  induction cs with
  | nil => exact fun _ _ => rfl
  | cons c cs ih =>
      intro b hb hstep
      obtain ⟨heq, hinv⟩ := hstep b hb c List.mem_cons_self
      rw [List.foldlM_cons, heq, List.foldl_cons]
      exact ih hinv fun b hb c hc => hstep b hb c (List.mem_cons_of_mem _ hc)

/-- Additions on the way to a machine word. -/
theorem foldlM_add {add? : Nat → β → Option Nat} {f : β → Nat} {bs : List β} :
    ∀ {m : Nat}, (∀ b ∈ bs, ∀ m, m + f b < 2 ^ 64 → add? m b = some (m + f b)) →
      m + (bs.map f).sum < 2 ^ 64 → bs.foldlM add? m = some (m + (bs.map f).sum) := by
  induction bs with
  | nil => exact fun _ _ => rfl
  | cons b bs ih =>
      intro m hadd hword
      rw [List.map_cons, List.sum_cons, ← Nat.add_assoc] at hword ⊢
      rw [List.foldlM_cons, hadd b List.mem_cons_self m (by omega)]
      exact ih (fun c hc => hadd c (List.mem_cons_of_mem b hc)) hword

/-- Counting on the way to a machine word. -/
theorem foldlM_countP {count? : Nat → β → Option Nat} {p : β → Bool} {bs : List β} {m : Nat}
    (hcount : ∀ b ∈ bs, ∀ m, m + (if p b then 1 else 0) < 2 ^ 64 →
      count? m b = some (m + if p b then 1 else 0))
    (hword : m + bs.countP p < 2 ^ 64) : bs.foldlM count? m = some (m + bs.countP p) := by
  have hsum : bs.countP p = (bs.map fun b => if p b then 1 else 0).sum := by
    clear hcount hword
    induction bs with
    | nil => rfl
    | cons b bs ih => rw [List.countP_cons, List.map_cons, List.sum_cons, ih, Nat.add_comm]
  rw [hsum] at hword ⊢
  exact foldlM_add hcount hword

theorem sum?_of_lt {ks : List Nat} (h : ks.sum < 2 ^ 64) :
    sum? ks = some (ks.foldl (· + ·) 0) := by
  have hrun : ks.foldlM (fun sum k => word? (sum + k)) 0 = some (0 + (ks.map id).sum) :=
    foldlM_add (fun _ _ _ hword => word?_of_lt hword) (by simpa using h)
  rwa [List.map_id, Nat.zero_add, List.sum_eq_foldl] at hrun

end CallAtlas.Word
