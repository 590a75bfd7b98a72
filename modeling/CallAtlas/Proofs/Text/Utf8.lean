import Mathlib
import CallAtlas.Text.Utf8

/-!
# Decoding, told by the characters

What the decoder does with bytes can be told without its tables. A run of bytes is **broken**
if it is no character, is one byte or the start of a character, and cannot be continued by
the byte that follows it. Bytes are **cut** into characters and broken runs, in one way only
(`Cuts.unique`), and the decoder finds the cut (`cuts_iff`).

Bytes come out as they went in exactly if they are well formed (`toUTF8_decodeLossy_eq_iff`).
-/

namespace CallAtlas.Text

/-! ### What bytes are cut into -/

/-- Are these the first bytes of some character? -/
def StartsChar (run : List UInt8) : Prop := ∃ c, run <+: String.utf8EncodeChar c

/-- A run of bytes that stands for no character, as long as it can be before `rest`. -/
structure Broken (run rest : List UInt8) : Prop where
  ne_nil : run ≠ []
  ne_char : ∀ c, run ≠ String.utf8EncodeChar c
  /-- More than one byte is taken only where a character starts. -/
  starts : StartsChar run ∨ run.length = 1
  stops : ∀ b, rest.head? = some b → ¬ StartsChar (run ++ [b])

/-- Bytes cut into characters and broken runs; a broken run is `none`. -/
inductive Cuts : List UInt8 → List (Option Char) → Prop where
  | nil : Cuts [] []
  | char (c : Char) {rest : List UInt8} {units : List (Option Char)} :
      Cuts rest units → Cuts (String.utf8EncodeChar c ++ rest) (some c :: units)
  | broken {run rest : List UInt8} {units : List (Option Char)} :
      Broken run rest → Cuts rest units → Cuts (run ++ rest) (none :: units)

/-- The bytes of a text with replacement characters for what is `none`. -/
def mended (units : List (Option Char)) : List UInt8 :=
  units.flatMap fun unit => String.utf8EncodeChar (unit.getD replacement)

/-! ### A cut is unique -/

/-- No character starts with another one. -/
theorem utf8EncodeChar_append_inj {c c' : Char} {rest rest' : List UInt8}
    (h : String.utf8EncodeChar c ++ rest = String.utf8EncodeChar c' ++ rest') :
    c = c' ∧ rest = rest' := by
  have hbytes := congrArg List.toByteArray h
  rw [List.toByteArray_append, List.toByteArray_append] at hbytes
  have hc := ByteArray.utf8DecodeChar?_utf8EncodeChar_append (b := rest.toByteArray) (c := c)
  rw [hbytes, ByteArray.utf8DecodeChar?_utf8EncodeChar_append] at hc
  obtain rfl : c' = c := Option.some.inj hc
  exact ⟨rfl, List.append_cancel_left h⟩

/-- A character and more is not the start of a character. -/
theorem not_startsChar_append {c : Char} {tail : List UInt8} (h : tail ≠ []) :
    ¬ StartsChar (String.utf8EncodeChar c ++ tail) := by
  rintro ⟨d, rest, heq⟩
  rw [List.append_assoc, ← List.append_nil (String.utf8EncodeChar d)] at heq
  have hnil := (utf8EncodeChar_append_inj heq).2
  exact h (List.append_eq_nil_iff.mp hnil).1

theorem length_append_ne_one {run tail : List UInt8} (hrun : run ≠ []) (htail : tail ≠ []) :
    (run ++ tail).length ≠ 1 := by
  have hrunLength := List.length_pos_of_ne_nil hrun
  have htailLength := List.length_pos_of_ne_nil htail
  rw [List.length_append]
  omega

theorem Broken.startsChar {run rest : List UInt8} (h : Broken run rest) (hlen : run.length ≠ 1) :
    StartsChar run :=
  h.starts.resolve_right hlen

/-- Where a broken run ends, nothing longer is the start of a character. -/
theorem Broken.eq_nil_of_startsChar {run tail rest : List UInt8} (h : Broken run (tail ++ rest))
    (hstarts : StartsChar (run ++ tail)) : tail = [] := by
  cases tail with
  | nil => rfl
  | cons b tail =>
      obtain ⟨c, hc⟩ := hstarts
      refine absurd ⟨c, List.IsPrefix.trans ?_ hc⟩ (h.stops b rfl)
      exact ⟨tail, by simp⟩

/-- Where a character stands there is no broken run. -/
theorem Broken.not_char {run rest rest' : List UInt8} {c : Char} (h : Broken run rest) :
    run ++ rest ≠ String.utf8EncodeChar c ++ rest' := by
  intro heq
  rcases List.append_eq_append_iff.mp heq with ⟨tail, hchar, rfl⟩ | ⟨tail, rfl, rfl⟩
  · have hnil := h.eq_nil_of_startsChar ⟨c, by rw [hchar]⟩
    rw [hnil, List.append_nil] at hchar
    exact h.ne_char c hchar.symm
  · have hne : tail ≠ [] := by
      rintro rfl
      exact h.ne_char c (List.append_nil _)
    exact not_startsChar_append hne
      (h.startsChar (length_append_ne_one String.utf8EncodeChar_ne_nil hne))

/-- Of two broken runs where one goes on, it goes on by nothing. -/
theorem Broken.eq_nil_of_append {run tail rest : List UInt8} (h : Broken run (tail ++ rest))
    (h' : Broken (run ++ tail) rest) : tail = [] := by
  by_contra hne
  exact hne (h.eq_nil_of_startsChar (h'.startsChar (length_append_ne_one h.ne_nil hne)))

theorem Broken.unique {run rest run' rest' : List UInt8} (h : Broken run rest)
    (h' : Broken run' rest') (heq : run ++ rest = run' ++ rest') : run = run' ∧ rest = rest' := by
  rcases List.append_eq_append_iff.mp heq with ⟨tail, rfl, rfl⟩ | ⟨tail, rfl, rfl⟩
  · obtain rfl := h.eq_nil_of_append h'
    simp
  · obtain rfl := h'.eq_nil_of_append h
    simp

/-- **There is one way to cut bytes.** By induction on one cut; the other one cannot begin
with a piece of another kind or length. -/
theorem Cuts.unique {bytes : List UInt8} {units units' : List (Option Char)}
    (h : Cuts bytes units) (h' : Cuts bytes units') : units = units' := by
  induction h generalizing units' with
  | nil =>
      generalize hbytes : ([] : List UInt8) = bytes at h'
      cases h' with
      | nil => rfl
      | char c _ => exact absurd (List.nil_eq_append_iff.mp hbytes).1 String.utf8EncodeChar_ne_nil
      | broken hbroken _ => exact absurd (List.nil_eq_append_iff.mp hbytes).1 hbroken.ne_nil
  | @char c rest units hrest ih =>
      generalize hbytes : String.utf8EncodeChar c ++ rest = bytes at h'
      cases h' with
      | nil => exact absurd (List.append_eq_nil_iff.mp hbytes).1 String.utf8EncodeChar_ne_nil
      | char c' hrest' =>
          obtain ⟨rfl, rfl⟩ := utf8EncodeChar_append_inj hbytes
          rw [ih hrest']
      | broken hbroken _ => exact absurd hbytes.symm hbroken.not_char
  | @broken run rest units hbroken hrest ih =>
      generalize hbytes : run ++ rest = bytes at h'
      cases h' with
      | nil => exact absurd (List.append_eq_nil_iff.mp hbytes).1 hbroken.ne_nil
      | char c' _ => exact absurd hbytes hbroken.not_char
      | broken hbroken' hrest' =>
          obtain ⟨rfl, rfl⟩ := hbroken.unique hbroken' hbytes
          rw [ih hrest']

/-- The bytes of characters are cut into them. -/
theorem cuts_flatMap (chars : List Char) :
    Cuts (chars.flatMap String.utf8EncodeChar) (chars.map some) := by
  induction chars with
  | nil => exact .nil
  | cons c chars ih => exact .char c ih

theorem Cuts.eq_flatMap {bytes : List UInt8} {chars : List Char} (h : Cuts bytes (chars.map some)) :
    bytes = chars.flatMap String.utf8EncodeChar := by
  induction chars generalizing bytes with
  | nil => cases h; rfl
  | cons c chars ih =>
      cases h with
      | char _ hrest => rw [List.flatMap_cons, ← ih hrest]

/-! ### The bytes of a character -/

theorem isContinuation_iff {b : UInt8} :
    isContinuation b = true ↔ 0x80 ≤ b.toNat ∧ b.toNat ≤ 0xBF := by
  rw [isContinuation, Bool.and_eq_true, decide_eq_true_eq, decide_eq_true_eq,
    UInt8.le_iff_toNat_le, UInt8.le_iff_toNat_le]
  rfl

/-- How many bytes follow a lead byte, by its number. -/
theorem tailLength?_eq_some_iff {a : UInt8} {n : Nat} :
    tailLength? a = some n ↔ n = 0 ∧ a.toNat < 0x80 ∨
      n = 1 ∧ 0xC2 ≤ a.toNat ∧ a.toNat ≤ 0xDF ∨ n = 2 ∧ 0xE0 ≤ a.toNat ∧ a.toNat ≤ 0xEF ∨
      n = 3 ∧ 0xF0 ≤ a.toNat ∧ a.toNat ≤ 0xF4 := by
  simp only [tailLength?, Bool.and_eq_true, decide_eq_true_eq, UInt8.lt_iff_toNat_lt,
    UInt8.le_iff_toNat_le, UInt8.reduceToNat]
  split_ifs <;> simp <;> omega

theorem secondByteOk_iff {a b : UInt8} :
    secondByteOk a b = true ↔ 0x80 ≤ b.toNat ∧ b.toNat ≤ 0xBF ∧
      (a.toNat = 0xE0 → 0xA0 ≤ b.toNat) ∧ (a.toNat = 0xED → b.toNat ≤ 0x9F) ∧
      (a.toNat = 0xF0 → 0x90 ≤ b.toNat) ∧ (a.toNat = 0xF4 → b.toNat ≤ 0x8F) := by
  simp only [secondByteOk, beq_iff_eq, ← UInt8.toNat_inj, UInt8.reduceToNat]
  split_ifs <;>
    simp only [Bool.and_eq_true, decide_eq_true_eq, UInt8.le_iff_toNat_le, UInt8.reduceToNat,
      isContinuation_iff] <;> omega

/-- May these bytes follow a lead byte? -/
def TailOk (lead : UInt8) : List UInt8 → Prop
  | [] => True
  | b :: bs => secondByteOk lead b = true ∧ ∀ c ∈ bs, isContinuation c = true

/-- The number made of the bits of a lead byte, of `n` to follow, and those that did. -/
def number (lead : UInt8) (n : Nat) (tail : List UInt8) : Nat :=
  tail.foldl (fun bits b => bits * 64 + tailBits b) (leadBits lead n)

theorem toNat_val_ofNat {v : Nat} (h : v < 0xD800 ∨ 0xDFFF < v ∧ v < 0x110000) :
    (Char.ofNat v).val.toNat = v :=
  (Char.toNat_ofNat v).trans (if_pos h)

theorem ofNat_eq {v : Nat} {b : UInt8} (h : v = b.toNat) : UInt8.ofNat v = b := by
  rw [h, UInt8.ofNat_toNat]

/-- A lead byte and as many more as must follow it are the bytes of a character. One case
for each number of bytes. -/
theorem encode_number {a : UInt8} {tail : List UInt8} (hlen : tailLength? a = some tail.length)
    (hok : TailOk a tail) :
    String.utf8EncodeChar (Char.ofNat (number a tail.length tail)) = a :: tail := by
  rw [tailLength?_eq_some_iff] at hlen
  unfold String.utf8EncodeChar
  match tail, hok with
  | [], _ =>
    rw [List.length_nil] at hlen ⊢
    have hv : number a 0 [] = a.toNat := rfl
    rw [toNat_val_ofNat (by omega), if_pos (by omega), ofNat_eq hv]
  | [b], hok =>
    rw [List.length_singleton] at hlen ⊢
    simp only [TailOk, secondByteOk_iff] at hok
    have hv : number a 1 [b] = a.toNat % 32 * 64 + b.toNat % 64 := rfl
    rw [toNat_val_ofNat (by omega), if_neg (by omega), if_pos (by omega),
      ofNat_eq (b := a) (by omega), ofNat_eq (b := b) (by omega)]
  | [b, c], hok =>
    simp only [List.length_cons, List.length_nil, Nat.zero_add, Nat.reduceAdd] at hlen ⊢
    simp only [TailOk, secondByteOk_iff, List.forall_mem_singleton, isContinuation_iff] at hok
    have hv : number a 2 [b, c] = (a.toNat % 16 * 64 + b.toNat % 64) * 64 + c.toNat % 64 := rfl
    rw [toNat_val_ofNat (by omega), if_neg (by omega), if_neg (by omega), if_pos (by omega),
      ofNat_eq (b := a) (by omega), ofNat_eq (b := b) (by omega), ofNat_eq (b := c) (by omega)]
  | [b, c, d], hok =>
    simp only [List.length_cons, List.length_nil, Nat.zero_add, Nat.reduceAdd] at hlen ⊢
    simp only [TailOk, secondByteOk_iff, List.forall_mem_cons, isContinuation_iff] at hok
    have hv : number a 3 [b, c, d] =
      ((a.toNat % 8 * 64 + b.toNat % 64) * 64 + c.toNat % 64) * 64 + d.toNat % 64 := rfl
    rw [toNat_val_ofNat (by omega), if_neg (by omega), if_neg (by omega), if_neg (by omega),
      ofNat_eq (b := a) (by omega), ofNat_eq (b := b) (by omega), ofNat_eq (b := c) (by omega),
      ofNat_eq (b := d) (by omega)]
  | _ :: _ :: _ :: _ :: _, _ =>
    simp only [List.length_cons] at hlen
    omega

/-- The bytes of a character are a lead byte and as many more as must follow it. That no
character is a surrogate, none is written too long and none is past the last one is what
the second byte may not be. -/
theorem encode_shape {c : Char} {a : UInt8} {tail : List UInt8}
    (h : String.utf8EncodeChar c = a :: tail) :
    tailLength? a = some tail.length ∧ TailOk a tail := by
  have hc : c.val.toNat < 0xD800 ∨ 0xDFFF < c.val.toNat ∧ c.val.toNat < 0x110000 := c.valid
  unfold String.utf8EncodeChar at h
  generalize c.val.toNat = v at h hc
  dsimp only at h
  rw [tailLength?_eq_some_iff]
  -- One case for each number of bytes, in which `v` has its bounds.
  split_ifs at h <;> cases h <;>
    simp only [List.length_cons, List.length_nil, TailOk, secondByteOk_iff, isContinuation_iff,
      List.forall_mem_cons, List.not_mem_nil, false_imp_iff, implies_true, and_true, true_and,
      UInt8.toNat_ofNat'] <;>
    omega

/-- What may follow a lead byte may break off. -/
theorem TailOk.of_append {a : UInt8} {tail more : List UInt8} (h : TailOk a (tail ++ more)) :
    TailOk a tail := by
  cases tail with
  | nil => trivial
  | cons b tail =>
      obtain ⟨hsecond, hrest⟩ := h
      exact ⟨hsecond, fun c hc => hrest c (List.mem_append_left _ hc)⟩

theorem tailOk_concat {a b : UInt8} {tail : List UInt8} : TailOk a (tail ++ [b]) ↔
    TailOk a tail ∧ (if tail.isEmpty then secondByteOk a b else isContinuation b) = true := by
  cases tail with
  | nil => simp [TailOk]
  | cons c tail => simp [TailOk, or_imp, forall_and, and_assoc]

/-- Some byte may follow any lead byte. -/
theorem exists_secondByteOk (a : UInt8) : ∃ b, secondByteOk a b = true := by
  by_cases hE0 : a.toNat = 0xE0
  · exact ⟨0xA0, secondByteOk_iff.mpr (by simp [hE0])⟩
  · by_cases hF0 : a.toNat = 0xF0
    · exact ⟨0x90, secondByteOk_iff.mpr (by simp [hF0])⟩
    · exact ⟨0x80, secondByteOk_iff.mpr (by simp [hE0, hF0])⟩

theorem TailOk.exists_append {a : UInt8} {tail : List UInt8} (h : TailOk a tail) {k : Nat} :
    ∃ more, more.length = k ∧ TailOk a (tail ++ more) := by
  induction k with
  | zero => exact ⟨[], rfl, by rwa [List.append_nil]⟩
  | succ k ih =>
      obtain ⟨more, rfl, hok⟩ := ih
      obtain ⟨b, hb⟩ : ∃ b, (if (tail ++ more).isEmpty then secondByteOk a b
          else isContinuation b) = true := by
        split
        · exact exists_secondByteOk a
        · exact ⟨0x80, rfl⟩
      refine ⟨more ++ [b], by simp, ?_⟩
      rw [← List.append_assoc]
      exact tailOk_concat.mpr ⟨hok, hb⟩

/-! ### The decoder -/

/-- Bytes are the first ones of a character if there is a way to go on. -/
theorem startsChar_cons_iff {a : UInt8} {tail : List UInt8} : StartsChar (a :: tail) ↔
    ∃ n, tailLength? a = some n ∧ tail.length ≤ n ∧ TailOk a tail := by
  constructor
  · rintro ⟨c, rest, hc⟩
    have hbytes : String.utf8EncodeChar c = a :: (tail ++ rest) := hc.symm
    obtain ⟨hlen, hok⟩ := encode_shape hbytes
    refine ⟨_, hlen, ?_, hok.of_append⟩
    rw [List.length_append]
    omega
  · rintro ⟨n, hlen, hle, hok⟩
    obtain ⟨more, hmore, hok⟩ := hok.exists_append (k := n - tail.length)
    have hn : (tail ++ more).length = n := by rw [List.length_append]; omega
    exact ⟨_, more, (encode_number (hn ▸ hlen) hok).symm⟩

/-- The bytes that a started character has read after its lead byte. -/
structure Started.HasRead (p : Started) (tail : List UInt8) : Prop where
  tailLength_eq : tailLength? p.lead = some (tail.length + p.missing)
  missing_pos : 0 < p.missing
  fresh_eq : p.fresh = tail.isEmpty
  bits_eq : p.bits = number p.lead (tail.length + p.missing) tail
  tailOk : TailOk p.lead tail

namespace Started.HasRead

variable {p : Started} {tail : List UInt8} {b : UInt8}

/-- A lead byte that is not a character by itself starts one. -/
theorem start {n : Nat} (h : tailLength? b = some (n + 1)) : HasRead
    { lead := b, bits := leadBits b (n + 1), missing := n + 1, fresh := true } [] where
  tailLength_eq := by rwa [List.length_nil, Nat.zero_add]
  missing_pos := n.succ_pos
  fresh_eq := rfl
  bits_eq := by
    rw [List.length_nil, Nat.zero_add]
    rfl
  tailOk := trivial

theorem accepts_iff (h : p.HasRead tail) : p.accepts b = true ↔ TailOk p.lead (tail ++ [b]) := by
  rw [tailOk_concat, and_iff_right h.tailOk, accepts, h.fresh_eq]

/-- One more byte, of several that are missing. -/
theorem next (h : p.HasRead tail) (hb : p.accepts b = true) (hmissing : ¬ p.missing ≤ 1) :
    HasRead
      { p with bits := p.bits * 64 + tailBits b, missing := p.missing - 1, fresh := false }
      (tail ++ [b]) := by
  have hlen : (tail ++ [b]).length + (p.missing - 1) = tail.length + p.missing := by
    rw [List.length_append, List.length_singleton]
    omega
  refine ⟨hlen ▸ h.tailLength_eq, ?_, by simp, ?_, h.accepts_iff.mp hb⟩
  · exact Nat.sub_pos_of_lt (Nat.lt_of_not_le hmissing)
  · change p.bits * 64 + tailBits b = _
    rw [h.bits_eq]
    change _ = number p.lead ((tail ++ [b]).length + (p.missing - 1)) (tail ++ [b])
    rw [hlen, number, number, List.foldl_concat]

/-- The last byte that is missing. -/
theorem encode (h : p.HasRead tail) (hb : p.accepts b = true) (hmissing : p.missing ≤ 1) :
    String.utf8EncodeChar (Char.ofNat (p.bits * 64 + tailBits b)) = p.lead :: (tail ++ [b]) := by
  have hlen : (tail ++ [b]).length = tail.length + p.missing := by
    rw [List.length_append, List.length_singleton]
    have := h.missing_pos
    omega
  have hbits : p.bits * 64 + tailBits b = number p.lead (tail ++ [b]).length (tail ++ [b]) := by
    rw [hlen, h.bits_eq, number, number, List.foldl_concat]
  rw [hbits]
  exact encode_number (hlen ▸ h.tailLength_eq) (h.accepts_iff.mp hb)

/-- The byte that comes next breaks the character off. -/
theorem broken (h : p.HasRead tail) {rest : List UInt8}
    (hrest : ∀ b, rest.head? = some b → p.accepts b ≠ true) : Broken (p.lead :: tail) rest where
  ne_nil := List.cons_ne_nil _ _
  ne_char := by
    intro c hc
    have hlen := (encode_shape hc.symm).1
    rw [h.tailLength_eq, Option.some_inj] at hlen
    have := h.missing_pos
    omega
  starts := Or.inl (startsChar_cons_iff.mpr ⟨_, h.tailLength_eq, Nat.le_add_right _ _, h.tailOk⟩)
  stops := by
    intro b hb hstarts
    obtain ⟨_, _, _, hok⟩ := startsChar_cons_iff.mp hstarts
    exact hrest b hb (h.accepts_iff.mpr hok)

end Started.HasRead

theorem broken_of_tailLength? {b : UInt8} (h : tailLength? b = none) (rest : List UInt8) :
    Broken [b] rest where
  ne_nil := List.cons_ne_nil _ _
  ne_char := by
    intro c hc
    have hlen := (encode_shape hc.symm).1
    rw [h] at hlen
    cases hlen
  starts := Or.inr rfl
  stops := by
    intro b' _ hstarts
    obtain ⟨n, hlen, _⟩ := startsChar_cons_iff.mp hstarts
    rw [h] at hlen
    cases hlen

theorem decodeUnits_none_cons (b : UInt8) (bytes : List UInt8) : decodeUnits none (b :: bytes) =
    (startWith b).1 ++ decodeUnits (startWith b).2 bytes := rfl

theorem decodeUnits_some_cons (p : Started) (b : UInt8) (bytes : List UInt8) :
    decodeUnits (some p) (b :: bytes) =
      if p.accepts b then
        if p.missing ≤ 1 then
          some (Char.ofNat (p.bits * 64 + tailBits b)) :: decodeUnits none bytes
        else decodeUnits (some { p with
          bits := p.bits * 64 + tailBits b, missing := p.missing - 1, fresh := false }) bytes
      else none :: decodeUnits none (b :: bytes) := rfl

/-- The decoder cuts bytes, and the bytes of a started character before them. By induction
on the bytes, for both at once. -/
theorem cuts_decodeUnits (bytes : List UInt8) : Cuts bytes (decodeUnits none bytes) ∧
    ∀ p tail, Started.HasRead p tail →
      Cuts (p.lead :: (tail ++ bytes)) (decodeUnits (some p) bytes) := by
  induction bytes with
  | nil =>
      refine ⟨.nil, fun p tail h => ?_⟩
      exact .broken (h.broken fun b hb => by cases hb) .nil
  | cons b bytes ih =>
      obtain ⟨hnone, hsome⟩ := ih
      have hfresh : Cuts (b :: bytes) (decodeUnits none (b :: bytes)) := by
        rw [decodeUnits_none_cons, startWith]
        cases hlen : tailLength? b with
        | none => exact .broken (broken_of_tailLength? hlen bytes) hnone
        | some n =>
            cases n with
            | zero =>
                have hchar := Cuts.char (Char.ofNat b.toNat) hnone
                have hb : String.utf8EncodeChar (Char.ofNat b.toNat) = [b] := by
                  have htail : tailLength? b = some ([] : List UInt8).length := hlen
                  exact encode_number htail trivial
                rwa [hb] at hchar
            | succ n => exact hsome _ [] (.start hlen)
      refine ⟨hfresh, fun p tail h => ?_⟩
      rw [decodeUnits_some_cons]
      split_ifs with hb hmissing
      · have hchar := Cuts.char (Char.ofNat (p.bits * 64 + tailBits b)) hnone
        rw [h.encode hb hmissing] at hchar
        simpa using hchar
      · have hmore := hsome _ _ (h.next hb hmissing)
        simpa using hmore
      · refine .broken (h.broken ?_) hfresh
        rintro b' hb'
        cases hb'
        exact hb

/-- **The decoder finds the cut.** -/
theorem cuts_iff {bytes : List UInt8} {units : List (Option Char)} :
    Cuts bytes units ↔ units = decodeUnits none bytes := by
  constructor
  · exact fun h => h.unique (cuts_decodeUnits bytes).1
  · rintro rfl
    exact (cuts_decodeUnits bytes).1

theorem decodeUnits_flatMap (chars : List Char) :
    decodeUnits none (chars.flatMap String.utf8EncodeChar) = chars.map some :=
  (cuts_iff.mp (cuts_flatMap chars)).symm

/-! ### Whole texts -/

theorem toList_loop (bytes : ByteArray) (i : Nat) (read : List UInt8) :
    ByteArray.toList.loop bytes i read = read.reverse ++ bytes.data.toList.drop i := by
  fun_induction ByteArray.toList.loop bytes i read with
  | case1 i read hi ih =>
      have hlt : i < bytes.data.toList.length := by simpa using hi
      rw [ih, List.drop_eq_getElem_cons hlt]
      simp [ByteArray.get!, hi]
  | case2 i read hi =>
      rw [List.drop_eq_nil_of_le (by simpa using Nat.le_of_not_lt hi), List.append_nil]

theorem toList_eq (bytes : ByteArray) : bytes.toList = bytes.data.toList := by
  rw [ByteArray.toList, toList_loop, List.reverse_nil, List.nil_append, List.drop_zero]

theorem toList_toByteArray (bytes : List UInt8) : bytes.toByteArray.toList = bytes := by
  rw [toList_eq, List.toList_data_toByteArray]

theorem toByteArray_toList (bytes : ByteArray) : bytes.toList.toByteArray = bytes := by
  rw [toList_eq]
  exact ByteArray.ext (by rw [List.data_toByteArray, Array.toArray_toList])

theorem isValidUTF8_iff {bytes : ByteArray} : bytes.IsValidUTF8 ↔
    ∃ chars : List Char, bytes.toList = chars.flatMap String.utf8EncodeChar := by
  constructor
  · rintro ⟨chars, rfl⟩
    exact ⟨chars, toList_toByteArray _⟩
  · rintro ⟨chars, hchars⟩
    refine ⟨chars, ?_⟩
    rw [← toByteArray_toList bytes, hchars]
    rfl

theorem toUTF8_decodeLossy (bytes : ByteArray) :
    (decodeLossy bytes).toUTF8 = (mended (decodeUnits none bytes.toList)).toByteArray := by
  rw [String.toUTF8_eq_toByteArray, decodeLossy]
  change (((decodeUnits none bytes.toList).map (·.getD replacement)).flatMap
    String.utf8EncodeChar).toByteArray = _
  rw [List.flatMap_map]
  rfl

/-- **Bytes come out as they went in exactly if they are well formed.** -/
theorem toUTF8_decodeLossy_eq_iff {bytes : ByteArray} :
    (decodeLossy bytes).toUTF8 = bytes ↔ bytes.IsValidUTF8 := by
  constructor
  · intro h
    rw [← h, String.toUTF8_eq_toByteArray]
    exact (decodeLossy bytes).isValidUTF8
  · intro h
    obtain ⟨chars, hchars⟩ := isValidUTF8_iff.mp h
    rw [toUTF8_decodeLossy, hchars, decodeUnits_flatMap, mended, List.flatMap_map]
    simp only [Option.getD_some]
    rw [← hchars, toByteArray_toList]

theorem mapM_id_eq_some_iff {units : List (Option Char)} {chars : List Char} :
    units.mapM id = some chars ↔ units = chars.map some := by
  induction units generalizing chars with
  | nil => cases chars <;> simp
  | cons unit units ih =>
      rw [List.mapM_cons]
      cases unit with
      | none => cases chars <;> simp
      | some c =>
          simp only [id, Option.bind_eq_bind, Option.bind_some, Option.bind_eq_some_iff, ih]
          cases chars <;> simp [and_comm, eq_comm (a := c)]

/-- The strict reading accepts the bytes of a text, and gives that text. -/
theorem decode?_eq_some_iff {bytes : ByteArray} {text : String} :
    decode? bytes = some text ↔ text.toUTF8 = bytes := by
  have hread : ∀ chars : List Char, (decodeUnits none bytes.toList).mapM id = some chars ↔
      bytes.toList = chars.flatMap String.utf8EncodeChar := by
    intro chars
    rw [mapM_id_eq_some_iff]
    constructor
    · exact fun h => (cuts_iff.mpr h.symm).eq_flatMap
    · intro h
      rw [h, decodeUnits_flatMap]
  rw [decode?, Option.map_eq_some_iff]
  simp only [hread]
  constructor
  · rintro ⟨chars, hchars, rfl⟩
    rw [← toByteArray_toList bytes, hchars]
    rfl
  · rintro rfl
    refine ⟨text.toList, ?_, String.ofList_toList⟩
    rw [String.toUTF8_eq_toByteArray, ← String.utf8Encode_toList]
    exact toList_toByteArray _

end CallAtlas.Text
