import Mathlib.Data.List.Basic
import CallAtlas.Json.Printer
import CallAtlas.Json.Reader

/-!
# Reading what was written

A value over several lines is read back as it was, at whatever depth it stands and
whatever comes after it. **One condition on what follows carries the induction**: a
number has no end of its own, so the text after it must not go on with a digit, a
point or an exponent (`StopsNumber`). After an item or a member comes a comma or a
line break, and after a whole document comes nothing, so the condition always holds.

The reader is bounded by a count that falls at every item as well as at every level.
The length of the text is a bound for both, because each item, each member and each
bracket takes at least one character.

The values are those whose numbers are whole (`Whole`); no document holds others.
-/

namespace CallAtlas.Json

/-! ### White space -/

theorem skipSpace_append {ws : List Char} (h : ∀ c ∈ ws, isSpace c = true) (rest : List Char) :
    skipSpace (ws ++ rest) = skipSpace rest :=
  List.dropWhile_append_of_pos h

theorem skipSpace_cons {c : Char} (h : isSpace c = false) (cs : List Char) :
    skipSpace (c :: cs) = c :: cs := by
  simp [skipSpace, h]

theorem isSpace_of_mem_newLine {depth : Nat} {c : Char} (h : c ∈ newLine depth) :
    isSpace c = true := by
  rcases List.mem_cons.mp h with rfl | h
  · rfl
  · rw [List.eq_of_mem_replicate h]
    rfl

@[simp] theorem skipSpace_newLine (depth : Nat) (rest : List Char) :
    skipSpace (newLine depth ++ rest) = skipSpace rest :=
  skipSpace_append (fun _ => isSpace_of_mem_newLine) rest

/-! ### Strings -/

theorem hexValue?_hexDigit : ∀ n < 16, hexValue? (hexDigit n) = some n := by decide

/-- The escape of a control character says its code. -/
theorem hex4?_control {n : Nat} (h : n < 0x20) :
    hex4? '0' '0' (hexDigit (n / 16)) (hexDigit (n % 16)) = some n := by
  have hzero : hexValue? '0' = some 0 := rfl
  have hvalue : ((0 * 16 + 0) * 16 + n / 16) * 16 + n % 16 = n := by omega
  unfold hex4?
  rw [hzero, hexValue?_hexDigit _ (by omega), hexValue?_hexDigit _ (by omega)]
  exact congrArg some hvalue

/-- A character that needs no escape is read as it stands. -/
theorem readString_plain {c : Char} (hquote : c ≠ '"') (hslash : c ≠ '\\')
    (hplain : 0x20 ≤ c.toNat) (rest : List Char) :
    readString (c :: rest) = (readString rest).map fun (s, rest) => (c :: s, rest) := by
  have hgood : ¬ (c.toNat < 0x20 ∨ c = '\\') := by
    rintro (h | h)
    · omega
    · exact hslash h
  rw [readString.eq_def]
  split
  case h_5 =>
    rename_i heq
    cases heq
    rw [if_neg hgood]
  all_goals simp_all

/-- A control character is read from the four digits of its code. -/
theorem readString_control {c : Char} (h : c.toNat < 0x20) (rest : List Char) :
    readString ('\\' :: 'u' :: '0' :: '0' :: hexDigit (c.toNat / 16) ::
      hexDigit (c.toNat % 16) :: rest) =
        (readString rest).map fun (s, rest) => (c :: s, rest) := by
  -- No control character is half of a surrogate pair.
  have hhigh : ¬ (0xD800 ≤ c.toNat ∧ c.toNat ≤ 0xDBFF) := by omega
  have hlow : ¬ (0xDC00 ≤ c.toNat ∧ c.toNat ≤ 0xDFFF) := by omega
  rw [readString]
  simp only [hex4?_control h, if_neg hhigh, if_neg hlow, Char.ofNat_toNat]

/-- An escaped character is read as itself. -/
theorem readString_escape (c : Char) (rest : List Char) :
    readString (escape c ++ rest) = (readString rest).map fun (s, rest) => (c :: s, rest) := by
  unfold escape
  by_cases hquote : c = '"'
  · subst hquote
    rfl
  by_cases hslash : c = '\\'
  · subst hslash
    rfl
  rw [if_neg hquote, if_neg hslash]
  by_cases hplain : 0x20 ≤ c.toNat
  · rw [if_pos hplain]
    exact readString_plain hquote hslash hplain rest
  rw [if_neg hplain]
  -- Five control characters have a letter of their own, the others only a code.
  split
  · subst c
    rfl
  split
  · subst c
    rfl
  split
  · subst c
    rfl
  split
  · subst c
    rfl
  split
  · subst c
    rfl
  · exact readString_control (by omega) rest

/-- A string is read as it was written, up to its closing quote. -/
theorem readString_quoted (s rest : List Char) :
    readString (s.flatMap escape ++ '"' :: rest) = some (s, rest) := by
  induction s with
  | nil => rw [List.flatMap_nil, List.nil_append, readString]
  | cons c s ih =>
      rw [List.flatMap_cons, List.append_assoc, readString_escape, ih, Option.map_some]

theorem quoted_append (s : String) (rest : List Char) :
    quoted s ++ rest = '"' :: (s.toList.flatMap escape ++ '"' :: rest) := by
  simp [quoted]

/-! ### Numbers -/

/-- What follows a number does not carry it on. -/
def StopsNumber (rest : List Char) : Prop :=
  ∀ c ∈ rest.head?, c.isDigit = false ∧ c ≠ '.' ∧ c ≠ 'e' ∧ c ≠ 'E'

theorem stopsNumber_nil : StopsNumber [] := by
  intro c hc
  cases hc

theorem stopsNumber_comma (cs : List Char) : StopsNumber (',' :: cs) := by
  rintro c ⟨⟩
  decide

theorem stopsNumber_newLine (depth : Nat) (cs : List Char) :
    StopsNumber (newLine depth ++ cs) := by
  rintro c ⟨⟩
  decide

theorem isDigit_of_mem_toDigits {n : Nat} {c : Char} (h : c ∈ Nat.toDigits 10 n) :
    c.isDigit = true :=
  Nat.isDigit_of_mem_toDigits (by decide) (by decide) h

/-- The digits of a number start with a zero only if it is zero. -/
theorem exists_toDigits_eq_cons (n : Nat) :
    ∃ c cs, Nat.toDigits 10 n = c :: cs ∧ c.isDigit = true ∧ (c = '0' → n = 0) := by
  induction n using Nat.strongRecOn with
  | ind n ih =>
      rw [Nat.toDigits_eq_if (by decide)]
      split
      case isTrue h => exact ⟨n.digitChar, [], rfl, by simpa using h, Nat.digitChar_eq_zero.mp⟩
      case isFalse h =>
        obtain ⟨c, cs, heq, hdigit, hzero⟩ := ih (n / 10) (by omega)
        refine ⟨c, cs ++ [(n % 10).digitChar], by rw [heq, List.cons_append], hdigit, ?_⟩
        intro hc
        have := hzero hc
        omega

/-- The digits before a point are all of a number's digits. -/
theorem readWholeDigits_toDigits {rest : List Char} (h : StopsNumber rest) (n : Nat) :
    readWholeDigits (Nat.toDigits 10 n ++ rest) = some (Nat.toDigits 10 n, rest) := by
  have htake : (Nat.toDigits 10 n ++ rest).takeWhile Char.isDigit = Nat.toDigits 10 n := by
    rw [List.takeWhile_append_of_pos fun _ => isDigit_of_mem_toDigits]
    cases rest with
    | nil => simp
    | cons c rest => simp [(h c rfl).1]
  have hdrop : (Nat.toDigits 10 n ++ rest).dropWhile Char.isDigit = rest := by
    rw [List.dropWhile_append_of_pos fun _ => isDigit_of_mem_toDigits]
    cases rest with
    | nil => rfl
    | cons c rest => simp [(h c rfl).1]
  obtain ⟨c, cs, hdigits, _, hzero⟩ := exists_toDigits_eq_cons n
  by_cases hc : c = '0'
  · obtain rfl := hzero hc
    rw [Nat.toDigits_zero]
    rfl
  · rw [hdigits, List.cons_append] at htake hdrop ⊢
    simp [readWholeDigits, hc, htake, hdrop]

theorem readFraction_of_stops {rest : List Char} (h : StopsNumber rest) :
    readFraction rest = some ([], rest) := by
  unfold readFraction
  split
  · exact absurd rfl (h _ rfl).2.1
  · rfl

theorem readExponent_of_stops {rest : List Char} (h : StopsNumber rest) :
    readExponent rest = some (none, rest) := by
  unfold readExponent
  split
  · exact absurd rfl (h _ rfl).2.2.1
  · exact absurd rfl (h _ rfl).2.2.2
  · rfl

/-- A whole number is read as it was written. -/
theorem readNumber_numberText (negative : Bool) (digits : Nat) {rest : List Char}
    (h : StopsNumber rest) :
    readNumber (numberText ⟨negative, digits, 0, true⟩ ++ rest) =
      some (⟨negative, digits, 0, true⟩, rest) := by
  have hwhole := readWholeDigits_toDigits h digits
  have hvalue : digitsValue (Nat.toDigits 10 digits) = digits := Nat.ofDigitChars_ten_toDigits
  obtain ⟨c, cs, hdigits, hdigit, _⟩ := exists_toDigits_eq_cons digits
  have hminus : c ≠ '-' := by
    rintro rfl
    cases hdigit
  unfold readNumber numberText
  rw [hdigits] at hwhole hvalue ⊢
  rw [List.cons_append] at hwhole
  cases negative <;>
    simp [hminus, hwhole, hvalue, readFraction_of_stops h, readExponent_of_stops h]

/-- May a number start with this character? -/
def startsNumber (c : Char) : Bool := c.isDigit || c == '-'

theorem ne_of_startsNumber {c d : Char} (hc : startsNumber c = true)
    (hd : startsNumber d = false) : c ≠ d := by
  rintro rfl
  rw [hc] at hd
  cases hd

theorem isSpace_of_startsNumber {c : Char} (hc : startsNumber c = true) : isSpace c = false := by
  have hne : ∀ d, startsNumber d = false → (c == d) = false := fun d hd =>
    beq_eq_false_iff_ne.mpr (ne_of_startsNumber hc hd)
  unfold isSpace
  rw [hne ' ' rfl, hne '\n' rfl, hne '\t' rfl, hne '\r' rfl]
  rfl

theorem exists_numberText_eq_cons (negative : Bool) (digits : Nat) :
    ∃ c cs, numberText ⟨negative, digits, 0, true⟩ = c :: cs ∧ startsNumber c = true := by
  obtain ⟨c, cs, hdigits, hdigit, _⟩ := exists_toDigits_eq_cons digits
  unfold numberText startsNumber
  cases negative with
  | false => exact ⟨c, cs, by simp [hdigits], by simp [hdigit]⟩
  | true => exact ⟨'-', c :: cs, by simp [hdigits], rfl⟩

/-! ### Values without parts -/

/-- Every number in a value is whole. -/
inductive Whole : Json → Prop
  | null : Whole null
  | bool (value : Bool) : Whole (bool value)
  | number (negative : Bool) (digits : Nat) : Whole (number ⟨negative, digits, 0, true⟩)
  | string (value : String) : Whole (string value)
  | array {items : List Json} : (∀ item ∈ items, Whole item) → Whole (array items)
  | object {members : List (String × Json)} :
      (∀ member ∈ members, Whole member.2) → Whole (object members)

/-- The value is read where it was written, by a reader whose bound exceeds the
length of its text. -/
def ReadBack (j : Json) : Prop :=
  ∀ depth fuel rest, (prettyAt depth j).length < fuel + 1 → StopsNumber rest →
    readValue (fuel + 1) (prettyAt depth j ++ rest) = some (j, rest)

theorem readBack_null : ReadBack null := fun _ _ _ _ _ => rfl

theorem readBack_bool (value : Bool) : ReadBack (bool value) := by
  intro depth fuel rest _ _
  cases value with
  | false => rfl
  | true => rfl

theorem readValue_string (fuel : Nat) (cs : List Char) :
    readValue (fuel + 1) ('"' :: cs) =
      (readString cs).map fun (s, rest) => (string (String.ofList s), rest) := rfl

theorem readBack_string (value : String) : ReadBack (string value) := by
  intro depth fuel rest _ _
  change readValue (fuel + 1) (quoted value ++ rest) = _
  rw [quoted_append, readValue_string, readString_quoted]
  simp only [Option.map_some, String.ofList_toList]

/-- No other kind of value starts like a number. -/
theorem readValue_number (fuel : Nat) {c : Char} (hc : startsNumber c = true) (cs : List Char) :
    readValue (fuel + 1) (c :: cs) =
      (readNumber (c :: cs)).map fun (n, rest) => (number n, rest) := by
  rw [readValue.eq_def]
  dsimp only
  rw [skipSpace_cons (isSpace_of_startsNumber hc)]
  split
  case h_7 => rfl
  all_goals
    rename_i heq
    exact absurd (List.cons.inj heq).1 (ne_of_startsNumber hc rfl)

theorem readBack_number (negative : Bool) (digits : Nat) :
    ReadBack (number ⟨negative, digits, 0, true⟩) := by
  intro depth fuel rest _ hrest
  have hread := readNumber_numberText negative digits hrest
  obtain ⟨c, cs, htext, hstart⟩ := exists_numberText_eq_cons negative digits
  change readValue (fuel + 1) (numberText _ ++ rest) = _
  rw [htext, List.cons_append] at hread ⊢
  rw [readValue_number fuel hstart, hread, Option.map_some]

/-- White space in front of a value does not show. -/
theorem readValue_congr {cs cs' : List Char} (h : skipSpace cs = skipSpace cs') (fuel : Nat) :
    readValue fuel cs = readValue fuel cs' := by
  cases fuel with
  | zero => rfl
  | succ fuel =>
      rw [readValue.eq_def, readValue.eq_def]
      dsimp only
      rw [h]

theorem readValue_space (fuel : Nat) (cs : List Char) :
    readValue fuel (' ' :: cs) = readValue fuel cs := by
  apply readValue_congr
  rfl

/-! ### Arrays -/

section Items

variable {fuel : Nat} {item : Json} {cs rest after : List Char}

theorem readItems_last (h : readValue fuel cs = some (item, rest))
    (hend : skipSpace rest = ']' :: after) : readItems (fuel + 1) cs = some ([item], after) := by
  rw [readItems.eq_def]
  simp only [h, hend]

theorem readItems_more (h : readValue fuel cs = some (item, rest))
    (hcomma : skipSpace rest = ',' :: after) :
    readItems (fuel + 1) cs =
      (readItems fuel after).map fun (items, rest) => (item :: items, rest) := by
  rw [readItems.eq_def]
  simp only [h, hcomma]

theorem readItems_newLine (fuel depth : Nat) (cs : List Char) :
    readItems fuel (newLine depth ++ cs) = readItems fuel cs := by
  cases fuel with
  | zero => rfl
  | succ fuel =>
      rw [readItems.eq_def, readItems.eq_def]
      dsimp only
      rw [readValue_congr (skipSpace_newLine depth cs)]

end Items

/-- The items of an array are read one after the other, up to its end. -/
theorem readItems_pretty (depth outer : Nat) (rest : List Char) {item : Json}
    {items : List Json} (h : ∀ j ∈ item :: items, ReadBack j) (fuel : Nat)
    (hfuel : (prettyAt depth item).length + (prettyItems depth items).length < fuel + 1) :
    readItems (fuel + 2) (prettyAt depth item ++ (prettyItems depth items ++
      (newLine outer ++ ']' :: rest))) = some (item :: items, rest) := by
  induction items generalizing item fuel with
  | nil =>
      have hitem := h item List.mem_cons_self depth fuel (newLine outer ++ ']' :: rest)
        (by omega) (stopsNumber_newLine outer _)
      exact readItems_last hitem (by rw [skipSpace_newLine, skipSpace_cons rfl])
  | cons next items ih =>
      have hitems : prettyItems depth (next :: items) =
        ',' :: newLine depth ++ prettyAt depth next ++ prettyItems depth items := rfl
      simp only [hitems, List.cons_append, List.append_assoc, List.length_cons,
        List.length_append] at hfuel ⊢
      have hitem := fun more => h item List.mem_cons_self depth fuel (',' :: more) (by omega)
        (stopsNumber_comma more)
      rw [readItems_more (hitem _) (skipSpace_cons rfl _)]
      -- The comma is a character that no item holds, so the bound may fall by one.
      obtain ⟨fuel, rfl⟩ : ∃ k, fuel = k + 1 := ⟨fuel - 1, by omega⟩
      have htail := ih (fun j hj => h j (List.mem_cons_of_mem item hj)) fuel (by omega)
      rw [readItems_newLine, htail, Option.map_some]

/-- A value starts with a character that is neither white space nor the end of an
array. -/
theorem exists_prettyAt_eq_cons {j : Json} (h : j.Whole) (depth : Nat) :
    ∃ c cs, prettyAt depth j = c :: cs ∧ isSpace c = false ∧ c ≠ ']' := by
  cases h with
  | null => exact ⟨'n', _, rfl, rfl, by decide⟩
  | bool value =>
      cases value with
      | false => exact ⟨'f', _, rfl, rfl, by decide⟩
      | true => exact ⟨'t', _, rfl, rfl, by decide⟩
  | number negative digits =>
      obtain ⟨c, cs, htext, hstart⟩ := exists_numberText_eq_cons negative digits
      exact ⟨c, cs, htext, isSpace_of_startsNumber hstart, ne_of_startsNumber hstart rfl⟩
  | string value => exact ⟨'"', _, rfl, rfl, by decide⟩
  | @array items _ =>
      cases items with
      | nil => exact ⟨'[', _, rfl, rfl, by decide⟩
      | cons item items => exact ⟨'[', _, rfl, rfl, by decide⟩
  | @object members _ =>
      cases members with
      | nil => exact ⟨'\x7b', _, rfl, rfl, by decide⟩
      | cons member members => exact ⟨'\x7b', _, rfl, rfl, by decide⟩

theorem readValue_array (fuel : Nat) (cs : List Char) :
    readValue (fuel + 1) ('[' :: cs) =
      match skipSpace cs with
      | ']' :: cs => some (array [], cs)
      | cs => (readItems fuel cs).map fun (items, rest) => (array items, rest) := rfl

theorem readBack_array {items : List Json} (hwhole : ∀ item ∈ items, item.Whole)
    (h : ∀ item ∈ items, ReadBack item) : ReadBack (array items) := by
  intro depth fuel rest hfuel _
  cases items with
  | nil => rfl
  | cons item items =>
      have hpretty : prettyAt depth (array (item :: items)) =
        '[' :: newLine (depth + 1) ++ prettyAt (depth + 1) item ++
          prettyItems (depth + 1) items ++ newLine depth ++ [']'] := rfl
      simp only [hpretty, List.cons_append, List.append_assoc, List.nil_append,
        List.length_cons, List.length_append] at hfuel ⊢
      obtain ⟨fuel, rfl⟩ : ∃ k, fuel = k + 2 := ⟨fuel - 2, by omega⟩
      have hitems := readItems_pretty (depth + 1) depth rest h fuel (by omega)
      obtain ⟨c, cs, htext, hspace, hend⟩ :=
        exists_prettyAt_eq_cons (hwhole item List.mem_cons_self) (depth + 1)
      rw [htext, List.cons_append] at hitems ⊢
      rw [readValue_array, skipSpace_newLine, skipSpace_cons hspace]
      split
      · rename_i heq
        exact absurd (List.cons.inj heq).1 hend
      · rw [hitems, Option.map_some]

/-! ### Objects -/

section Members

variable {fuel : Nat} {name : String} {value : Json} {cs rest after : List Char}

theorem readMembers_last (h : readValue fuel cs = some (value, rest))
    (hend : skipSpace rest = '\x7d' :: after) :
    readMembers (fuel + 1) (quoted name ++ ':' :: ' ' :: cs) = some ([(name, value)], after) := by
  have hvalue : readValue fuel (' ' :: cs) = some (value, rest) :=
    (readValue_space fuel cs).trans h
  rw [readMembers.eq_def, quoted_append]
  simp only [readString_quoted, skipSpace_cons (c := '"') rfl, skipSpace_cons (c := ':') rfl,
    hvalue, hend, String.ofList_toList]

theorem readMembers_more (h : readValue fuel cs = some (value, rest))
    (hcomma : skipSpace rest = ',' :: after) :
    readMembers (fuel + 1) (quoted name ++ ':' :: ' ' :: cs) =
      (readMembers fuel after).map fun (members, rest) => ((name, value) :: members, rest) := by
  have hvalue : readValue fuel (' ' :: cs) = some (value, rest) :=
    (readValue_space fuel cs).trans h
  rw [readMembers.eq_def, quoted_append]
  simp only [readString_quoted, skipSpace_cons (c := '"') rfl, skipSpace_cons (c := ':') rfl,
    hvalue, hcomma, String.ofList_toList]

theorem readMembers_newLine (fuel depth : Nat) (cs : List Char) :
    readMembers fuel (newLine depth ++ cs) = readMembers fuel cs := by
  cases fuel with
  | zero => rfl
  | succ fuel =>
      rw [readMembers.eq_def, readMembers.eq_def]
      dsimp only
      rw [skipSpace_newLine]

end Members

/-- The members of an object are read one after the other, up to its end. -/
theorem readMembers_pretty (depth outer : Nat) (rest : List Char) {name : String} {value : Json}
    {members : List (String × Json)} (h : ∀ m ∈ (name, value) :: members, ReadBack m.2)
    (fuel : Nat)
    (hfuel : (prettyAt depth value).length + (prettyMembers depth members).length < fuel + 1) :
    readMembers (fuel + 2) (quoted name ++ ':' :: ' ' :: (prettyAt depth value ++
      (prettyMembers depth members ++ (newLine outer ++ '\x7d' :: rest)))) =
        some ((name, value) :: members, rest) := by
  induction members generalizing name value fuel with
  | nil =>
      have hvalue := h _ List.mem_cons_self depth fuel (newLine outer ++ '\x7d' :: rest)
        (by dsimp only; omega) (stopsNumber_newLine _ _)
      exact readMembers_last hvalue (by rw [skipSpace_newLine, skipSpace_cons rfl])
  | cons next members ih =>
      obtain ⟨nextName, nextValue⟩ := next
      have hmembers : prettyMembers depth ((nextName, nextValue) :: members) =
        ',' :: newLine depth ++ quoted nextName ++ [':', ' '] ++ prettyAt depth nextValue ++
          prettyMembers depth members := rfl
      simp only [hmembers, List.cons_append, List.append_assoc, List.nil_append,
        List.length_cons, List.length_append] at hfuel ⊢
      have hvalue := fun more => h _ List.mem_cons_self depth fuel (',' :: more)
        (by dsimp only; omega) (stopsNumber_comma more)
      rw [readMembers_more (hvalue _) (skipSpace_cons rfl _)]
      -- The comma is a character that no member holds, so the bound may fall by one.
      obtain ⟨fuel, rfl⟩ : ∃ k, fuel = k + 1 := ⟨fuel - 1, by omega⟩
      have htail := ih (fun m hm => h m (List.mem_cons_of_mem _ hm)) fuel (by omega)
      rw [readMembers_newLine, htail, Option.map_some]

theorem readValue_object (fuel : Nat) (cs : List Char) :
    readValue (fuel + 1) ('\x7b' :: cs) =
      match skipSpace cs with
      | '\x7d' :: cs => some (object [], cs)
      | cs => (readMembers fuel cs).map fun (members, rest) => (object members, rest) := rfl

theorem readBack_object {members : List (String × Json)} (h : ∀ m ∈ members, ReadBack m.2) :
    ReadBack (object members) := by
  intro depth fuel rest hfuel _
  cases members with
  | nil => rfl
  | cons member members =>
      obtain ⟨name, value⟩ := member
      have hpretty : prettyAt depth (object ((name, value) :: members)) =
        '\x7b' :: newLine (depth + 1) ++ quoted name ++ [':', ' '] ++ prettyAt (depth + 1) value ++
          prettyMembers (depth + 1) members ++ newLine depth ++ ['\x7d'] := rfl
      simp only [hpretty, List.cons_append, List.append_assoc, List.nil_append,
        List.length_cons, List.length_append] at hfuel ⊢
      obtain ⟨fuel, rfl⟩ : ∃ k, fuel = k + 2 := ⟨fuel - 2, by omega⟩
      have hmembers := readMembers_pretty (depth + 1) depth rest h fuel (by omega)
      rw [quoted_append] at hmembers
      rw [readValue_object, skipSpace_newLine, quoted_append, skipSpace_cons rfl]
      change (readMembers (fuel + 2) _).map _ = _
      rw [hmembers, Option.map_some]

/-! ### Documents -/

/-- A value is read back from every place it can stand at. -/
theorem Whole.readBack {j : Json} (h : j.Whole) : ReadBack j := by
  induction h with
  | null => exact readBack_null
  | bool value => exact readBack_bool value
  | number negative digits => exact readBack_number negative digits
  | string value => exact readBack_string value
  | array h ih => exact readBack_array h ih
  | object _ ih => exact readBack_object ih

/-- **What was written can be read**: a value whose numbers are whole is the value
that its text over several lines says. -/
theorem Whole.parse?_pretty {j : Json} (h : j.Whole) : parse? j.pretty = some j := by
  have hread := h.readBack 0 (2 * (prettyAt 0 j).length) [] (by omega) stopsNumber_nil
  rw [List.append_nil] at hread
  unfold parse? pretty
  dsimp only
  rw [String.toList_ofList, hread]
  rfl

end CallAtlas.Json
