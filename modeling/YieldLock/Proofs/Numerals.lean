import Mathlib.Data.List.TakeDrop
import YieldLock.Json.Scalar
import YieldLock.Proofs.Spelling

/-!
# How numbers are spelled

The grammar of numbers, again as relations between a text and the rest of it. A word
is spelled by its decimal digits and in no other way. Main statements:
`IsNumber.exists_numeral`, every number is read as far as it goes, and
`Word.readUnsigned`, a word is read as what its digits denote.
-/

namespace YieldLock.Json

/-- A text does not go on with a digit. -/
def EndsDigits (rest : List Char) : Prop := ∀ c ∈ rest.head?, c.isDigit = false

/-- A text does not go on with a number. -/
def EndsNumber (rest : List Char) : Prop :=
  ∀ c ∈ rest.head?, c.isDigit = false ∧ c ≠ '.' ∧ c ≠ 'e' ∧ c ≠ 'E'

/-- Decimal digits, as many as there are. -/
inductive Digits : List Char → List Char → List Char → Prop where
  | last {c : Char} {rest : List Char} (hdigit : c.isDigit = true) (hends : EndsDigits rest) :
      Digits (c :: rest) [c] rest
  | more {c : Char} {text found rest : List Char} (hdigit : c.isDigit = true)
      (digits : Digits text found rest) : Digits (c :: text) (c :: found) rest

/-- The digits before a point: a zero stands alone. -/
inductive Whole : List Char → List Char → Prop where
  | zero {rest : List Char} (hends : EndsDigits rest) : Whole ('0' :: rest) rest
  | digits {c : Char} {text found rest : List Char} (hzero : c ≠ '0')
      (digits : Digits (c :: text) found rest) : Whole (c :: text) rest

inductive Fraction : List Char → List Char → Prop where
  | none {rest : List Char} (hends : ∀ c ∈ rest.head?, c ≠ '.') : Fraction rest rest
  | some {text found rest : List Char} (digits : Digits text found rest) :
      Fraction ('.' :: text) rest

/-- The sign of an exponent, if it has one. -/
inductive Sign : List Char → List Char → Prop where
  | none (rest : List Char) : Sign rest rest
  | plus (rest : List Char) : Sign ('+' :: rest) rest
  | minus (rest : List Char) : Sign ('-' :: rest) rest

inductive Exponent : List Char → List Char → Prop where
  | none {rest : List Char} (hends : ∀ c ∈ rest.head?, c ≠ 'e' ∧ c ≠ 'E') : Exponent rest rest
  | some {mark : Char} {text inner found rest : List Char} (hmark : mark = 'e' ∨ mark = 'E')
      (sign : Sign text inner) (digits : Digits inner found rest) : Exponent (mark :: text) rest

inductive IsNumber : List Char → List Char → Prop where
  | mk {text more behind rest : List Char} (whole : Whole text more)
      (fraction : Fraction more behind) (exponent : Exponent behind rest) : IsNumber text rest
  | negative {text more behind rest : List Char} (whole : Whole text more)
      (fraction : Fraction more behind) (exponent : Exponent behind rest) :
      IsNumber ('-' :: text) rest

/-- The decimal digits of a number, and no more of a number behind them. -/
structure Word (text : List Char) (value : Nat) (rest : List Char) : Prop where
  digits : text = Nat.toDigits 10 value ++ rest
  ends : EndsNumber rest

section

variable {text found rest : List Char} {value : Nat}

theorem EndsNumber.endsDigits (h : EndsNumber rest) : EndsDigits rest :=
  fun c hc ↦ (h c hc).1

theorem endsNumber_cons {c : Char} (hdigit : c.isDigit = false)
    (hmarks : c ≠ '.' ∧ c ≠ 'e' ∧ c ≠ 'E') (rest : List Char) : EndsNumber (c :: rest) := by
  intro d hd
  cases Option.some_inj.mp hd
  exact ⟨hdigit, hmarks⟩

theorem Digits.eq_append (h : Digits text found rest) :
    text = found ++ rest ∧ found ≠ [] ∧ (∀ c ∈ found, c.isDigit = true) ∧ EndsDigits rest := by
  induction h with
  | last hdigit hends =>
    exact ⟨rfl, List.cons_ne_nil _ _, List.forall_mem_singleton.mpr hdigit, hends⟩
  | more hdigit _ ih =>
    obtain ⟨rfl, _, hdigits, hends⟩ := ih
    exact ⟨rfl, List.cons_ne_nil _ _, List.forall_mem_cons.mpr ⟨hdigit, hdigits⟩, hends⟩

/-- Some digits with none behind them are all the digits that are there. -/
theorem digits_append (hfound : found ≠ []) (hdigits : ∀ c ∈ found, c.isDigit = true)
    (hends : EndsDigits rest) : Digits (found ++ rest) found rest := by
  induction found with
  | nil => exact absurd rfl hfound
  | cons c found ih =>
    obtain ⟨hdigit, hdigits⟩ := List.forall_mem_cons.mp hdigits
    cases found with
    | nil => exact .last hdigit hends
    | cons => exact .more hdigit (ih (List.cons_ne_nil _ _) hdigits)

theorem Digits.span_eq (h : Digits text found rest) : text.span Char.isDigit = (found, rest) := by
  obtain ⟨rfl, _, hdigits, hends⟩ := h.eq_append
  have hrest : rest.takeWhile Char.isDigit = [] ∧ rest.dropWhile Char.isDigit = rest := by
    cases rest with
    | nil => exact ⟨rfl, rfl⟩
    | cons c rest =>
      have hc : ¬c.isDigit = true := Bool.eq_false_iff.mp (hends c rfl)
      exact ⟨List.takeWhile_cons_of_neg hc, List.dropWhile_cons_of_neg hc⟩
  rw [List.span_eq_takeWhile_dropWhile, List.takeWhile_append_of_pos hdigits,
    List.dropWhile_append_of_pos hdigits, hrest.1, hrest.2, List.append_nil]

theorem Digits.digits (h : Digits text found rest) (atEnd : ReadError) :
    digits atEnd text = .ok (found, rest) := by
  obtain ⟨_, hfound, _⟩ := h.eq_append
  rw [Json.digits, h.span_eq]
  cases found with
  | nil => exact absurd rfl hfound
  | cons => rfl

theorem Whole.exists_whole (h : Whole text rest) (atEnd : ReadError) :
    ∃ found, whole atEnd text = .ok (found, rest) := by
  cases h with
  | zero hends =>
    refine ⟨['0'], ?_⟩
    cases rest with
    | nil => rfl
    | cons c rest => simp [whole, hends c rfl]
  | @digits c _ found _ hzero digits =>
    refine ⟨found, ?_⟩
    rw [← digits.digits atEnd, whole]
    intro rest hcons
    exact hzero (List.cons.inj hcons).1

theorem Fraction.exists_fraction (h : Fraction text rest) (atEnd : ReadError) :
    ∃ found, fraction atEnd text = .ok (found, rest) := by
  cases h with
  | none hends =>
    refine ⟨.none, ?_⟩
    rw [fraction]
    rintro rest rfl
    exact hends '.' rfl rfl
  | @some _ found _ digits => exact ⟨.some found, by rw [fraction, digits.digits]; rfl⟩

/-- Digits begin with a digit, which is no sign. -/
theorem Digits.exists_cons (h : Digits text found rest) :
    ∃ c more, text = c :: more ∧ c.isDigit = true := by
  cases h with
  | last hdigit | more hdigit => exact ⟨_, _, rfl, hdigit⟩

theorem Exponent.exists_exponent (h : Exponent text rest) (atEnd : ReadError) :
    ∃ found, exponent atEnd text = .ok (found, rest) := by
  cases h with
  | none hends =>
    refine ⟨.none, ?_⟩
    rw [exponent]
    · rintro rest rfl
      exact (hends 'e' rfl).1 rfl
    · rintro rest rfl
      exact (hends 'E' rfl).2 rfl
  | @some _ _ _ found _ hmark sign digits =>
    have hfound := digits.digits atEnd
    cases sign with
    | none =>
      obtain ⟨c, more, rfl, hdigit⟩ := digits.exists_cons
      have hminus : c ≠ '-' := by
        rintro rfl
        cases hdigit
      have hplus : c ≠ '+' := by
        rintro rfl
        cases hdigit
      obtain rfl | rfl := hmark
      all_goals
        refine ⟨.some (false, found), ?_⟩
        simp only [exponent]
        split
        · exact absurd (List.cons.inj ‹_›).1 hminus
        · exact absurd (List.cons.inj ‹_›).1 hplus
        · rw [hfound]
          rfl
    | plus | minus =>
      obtain rfl | rfl := hmark
      all_goals
        rw [exponent, hfound]
        exact ⟨_, rfl⟩

theorem Whole.exists_cons (h : Whole text rest) :
    ∃ c more, text = c :: more ∧ c.isDigit = true := by
  cases h with
  | zero => exact ⟨_, _, rfl, rfl⟩
  | digits _ digits => exact digits.exists_cons

theorem Digits.length_lt (h : Digits text found rest) : rest.length < text.length := by
  obtain ⟨rfl, hfound, _⟩ := h.eq_append
  have hpos := List.length_pos_iff.mpr hfound
  rw [List.length_append]
  omega

theorem Whole.length_lt (h : Whole text rest) : rest.length < text.length := by
  cases h with
  | zero => exact Nat.lt_succ_self _
  | digits _ digits => exact digits.length_lt

theorem Fraction.length_le (h : Fraction text rest) : rest.length ≤ text.length := by
  cases h with
  | none => exact Nat.le_refl _
  | some digits => exact Nat.le_succ_of_le (Nat.le_of_lt digits.length_lt)

theorem Exponent.length_le (h : Exponent text rest) : rest.length ≤ text.length := by
  cases h with
  | none => exact Nat.le_refl _
  | some _ sign digits =>
    have hdigits := digits.length_lt
    cases sign with
    | none | plus | minus =>
      simp only [List.length_cons] at hdigits ⊢
      omega

theorem IsNumber.length_lt (h : IsNumber text rest) : rest.length < text.length := by
  cases h with
  | mk whole fraction exponent | negative whole fraction exponent =>
    have hwhole := whole.length_lt
    have hfraction := fraction.length_le
    have hexponent := exponent.length_le
    first
    | omega
    | rw [List.length_cons]
      omega

/-- A number begins with a sign or with a digit. -/
theorem IsNumber.exists_cons (h : IsNumber text rest) :
    ∃ c more, text = c :: more ∧ (c = '-' ∨ c.isDigit = true) := by
  cases h with
  | mk whole =>
    obtain ⟨c, more, htext, hdigit⟩ := whole.exists_cons
    exact ⟨c, more, htext, .inr hdigit⟩
  | negative => exact ⟨'-', _, rfl, .inl rfl⟩

section

variable {more behind : List Char} {atEnd : ReadError} {point : Option (List Char)}
  {power : Option (Bool × List Char)}

/-- A number without a sign is read part by part. -/
theorem numeral_of_parts (hwhole : whole atEnd text = .ok (found, more))
    (hfraction : fraction atEnd more = .ok (point, behind))
    (hexponent : exponent atEnd behind = .ok (power, rest))
    (hminus : ∀ c ∈ text.head?, c ≠ '-') :
    numeral atEnd text =
      .ok ({ isNegative := false, whole := found, fraction := point, exponent := power },
        rest) := by
  unfold numeral
  simp only
  split
  · exact absurd rfl (hminus '-' rfl)
  · simp only [hwhole, hfraction, hexponent, bind, Except.bind, pure, Except.pure]

theorem numeral_of_minus (hwhole : whole atEnd text = .ok (found, more))
    (hfraction : fraction atEnd more = .ok (point, behind))
    (hexponent : exponent atEnd behind = .ok (power, rest)) :
    numeral atEnd ('-' :: text) =
      .ok ({ isNegative := true, whole := found, fraction := point, exponent := power }, rest) := by
  unfold numeral
  simp only [hwhole, hfraction, hexponent, bind, Except.bind, pure, Except.pure]

end

/-- A number is read as far as it goes. -/
theorem IsNumber.exists_numeral (h : IsNumber text rest) (atEnd : ReadError) :
    ∃ found, numeral atEnd text = .ok (found, rest) := by
  cases h with
  | mk whole fraction exponent =>
    obtain ⟨c, more, rfl, hdigit⟩ := whole.exists_cons
    have hminus : ∀ d ∈ (c :: more).head?, d ≠ '-' := by
      rintro d hd rfl
      cases Option.some_inj.mp hd
      cases hdigit
    obtain ⟨_, hwhole⟩ := whole.exists_whole atEnd
    obtain ⟨_, hfraction⟩ := fraction.exists_fraction atEnd
    obtain ⟨_, hexponent⟩ := exponent.exists_exponent atEnd
    exact ⟨_, numeral_of_parts hwhole hfraction hexponent hminus⟩
  | negative whole fraction exponent =>
    obtain ⟨_, hwhole⟩ := whole.exists_whole atEnd
    obtain ⟨_, hfraction⟩ := fraction.exists_fraction atEnd
    obtain ⟨_, hexponent⟩ := exponent.exists_exponent atEnd
    exact ⟨_, numeral_of_minus hwhole hfraction hexponent⟩

/-! ## Words -/

theorem isBlank_of_isDigit {c : Char} (h : c.isDigit = true) : isBlank c = false := by
  apply Bool.eq_false_iff.mpr
  intro hblank
  simp only [isBlank, Bool.or_eq_true, decide_eq_true_eq] at hblank
  obtain ((rfl | rfl) | rfl) | rfl := hblank <;> cases h

theorem digitValue_digitChar : ∀ digit < 10, digitValue (Nat.digitChar digit) = digit := by
  decide

theorem isDigit_of_mem_toDigits {c : Char} (h : c ∈ Nat.toDigits 10 value) : c.isDigit = true :=
  Nat.isDigit_of_mem_toDigits (by decide) (by decide) h

theorem head?_toDigits_append (value : Nat) (rest : List Char) :
    (Nat.toDigits 10 value ++ rest).head? = (Nat.toDigits 10 value).head? := by
  cases hdigits : Nat.toDigits 10 value with
  | nil => exact absurd hdigits Nat.toDigits_ne_nil
  | cons => rfl

/-- The first digit of a positive number is no zero. -/
theorem head?_toDigits_ne_zero (hpos : 0 < value) :
    ∀ c ∈ (Nat.toDigits 10 value).head?, c ≠ '0' := by
  induction value using Nat.strongRecOn with
  | ind value ih =>
    obtain hless | hmore := Nat.lt_or_ge value 10
    · rw [Nat.toDigits_of_lt_base hless]
      rintro c hc rfl
      have hzero : value = 0 := Nat.digitChar_eq_zero.mp (Option.some_inj.mp hc)
      omega
    · rw [Nat.toDigits_of_base_le (by decide) hmore, head?_toDigits_append]
      exact ih (value / 10) (by omega) (by omega)

/-- Digits that fit a word are taken in. -/
theorem absorb_append {word next : Nat} {more : List Char} (h : absorb word found = (next, [])) :
    absorb word (found ++ more) = absorb next more := by
  induction found generalizing word with
  | nil =>
    obtain rfl := (Prod.mk.inj h).1
    rfl
  | cons c found ih =>
    unfold absorb at h
    rw [List.cons_append, absorb]
    simp only at h ⊢
    split at h
    · rw [if_pos ‹_›]
      exact ih h
    · cases h

theorem absorb_toDigits (hvalue : value < UInt64.size) :
    absorb 0 (Nat.toDigits 10 value) = (value, []) := by
  induction value using Nat.strongRecOn with
  | ind value ih =>
    have hlast (word : Nat) (hword : word * 10 + value % 10 = value) :
        absorb word [Nat.digitChar (value % 10)] = (value, []) := by
      rw [absorb, digitValue_digitChar _ (Nat.mod_lt _ (by decide)), hword]
      exact if_pos hvalue
    obtain hless | hmore := Nat.lt_or_ge value 10
    · rw [Nat.toDigits_of_lt_base hless]
      have hsame : value % 10 = value := Nat.mod_eq_of_lt hless
      rw [hsame] at hlast
      exact hlast 0 (by omega)
    · rw [Nat.toDigits_of_base_le (by decide) hmore,
        absorb_append (ih (value / 10) (by omega) (by omega))]
      exact hlast (value / 10) (by omega)

theorem Word.exists_cons (h : Word text value rest) :
    ∃ c more, text = c :: more ∧ c.isDigit = true := by
  obtain ⟨rfl, _⟩ := h
  cases hdigits : Nat.toDigits 10 value with
  | nil => exact absurd hdigits Nat.toDigits_ne_nil
  | cons c more =>
    exact ⟨c, _, rfl, isDigit_of_mem_toDigits (hdigits ▸ List.mem_cons_self)⟩

theorem Word.whole (h : Word text value rest) (atEnd : ReadError) :
    whole atEnd text = .ok (Nat.toDigits 10 value, rest) := by
  obtain ⟨rfl, hends⟩ := h
  obtain rfl | hpos := Nat.eq_zero_or_pos value
  · rw [Nat.toDigits_zero]
    cases rest with
    | nil => rfl
    | cons c rest => simp [Json.whole, (hends c rfl).1]
  · have digits : Digits (Nat.toDigits 10 value ++ rest) (Nat.toDigits 10 value) rest :=
      digits_append Nat.toDigits_ne_nil (fun c hc ↦ isDigit_of_mem_toDigits hc) hends.endsDigits
    rw [← digits.digits atEnd, Json.whole]
    intro more hzero
    have hhead : (Nat.toDigits 10 value ++ rest).head? = some '0' := by rw [hzero]; rfl
    rw [head?_toDigits_append] at hhead
    exact head?_toDigits_ne_zero hpos '0' hhead rfl

theorem EndsNumber.fraction (h : EndsNumber rest) (atEnd : ReadError) :
    fraction atEnd rest = .ok (none, rest) := by
  rw [Json.fraction]
  rintro more rfl
  exact (h '.' rfl).2.1 rfl

theorem EndsNumber.exponent (h : EndsNumber rest) (atEnd : ReadError) :
    exponent atEnd rest = .ok (none, rest) := by
  rw [Json.exponent]
  · rintro more rfl
    exact (h 'e' rfl).2.2.1 rfl
  · rintro more rfl
    exact (h 'E' rfl).2.2.2 rfl

/-- The digits of a word are read as the word. -/
theorem Word.readNumber (h : Word text value rest) (hvalue : value < UInt64.size) :
    readNumber text = .ok (.natural (UInt64.ofNat value), rest) := by
  have hminus : ∀ c ∈ text.head?, c ≠ '-' := by
    obtain ⟨d, more, rfl, hdigit⟩ := h.exists_cons
    rintro c hc rfl
    cases Option.some_inj.mp hc
    cases hdigit
  have hnumeral := numeral_of_parts (h.whole .endOfValue) (h.ends.fraction .endOfValue)
    (h.ends.exponent .endOfValue) hminus
  have hword : Numeral.word? ⟨false, Nat.toDigits 10 value, none, none⟩ = some value := by
    simp only [Numeral.word?, absorb_toDigits hvalue]
    rfl
  simp only [Json.readNumber, hnumeral, Numeral.number, hword, bind, Except.bind, pure, Except.pure]

/-- A word that is asked for is read as what its digits denote. -/
theorem Word.readUnsigned (h : Word text value rest) {before : List Char}
    (hbefore : skipBlanks before = text) {bound : Nat} (hbound : value ≤ bound)
    (hvalue : value < UInt64.size) (expected : String) :
    readUnsigned bound expected before = .ok (value, rest) := by
  obtain ⟨c, more, rfl, hdigit⟩ := h.exists_cons
  have hstart : isNumberStart c = true := by rw [isNumberStart, hdigit, Bool.or_true]
  have hword : (UInt64.ofNat value).toNat = value := UInt64.toNat_ofNat_of_lt' hvalue
  rw [Json.readUnsigned, hbefore]
  simp only [hstart, if_true, h.readNumber hvalue, bind, Except.bind, hword, if_pos hbound]

end

end YieldLock.Json
