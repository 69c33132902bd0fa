import YieldLock.Json.Skip
import YieldLock.Json.Write

/-!
# How strings are spelled

The grammar of strings, as relations between a text, what the head of it denotes and
the rest. A string that is skipped may hold surrogates that do not pair; one that
denotes a text may not. Main statements: `Spells.readText` and `IsText.skipText`, the
readers accept all that the grammar has, and `spells_escaped`, what is written is
spelled right.
-/

namespace YieldLock.Json

/-- A text begins with blanks, and then comes the rest. -/
inductive Blanks : List Char → List Char → Prop where
  | nil (rest : List Char) : Blanks rest rest
  | cons {c : Char} {text rest : List Char} (hblank : isBlank c = true)
      (blanks : Blanks text rest) : Blanks (c :: text) rest

/-- Four hexadecimal digits. -/
inductive Code : List Char → Nat → List Char → Prop where
  | mk {a b c d : Char} {w x y z : Nat} {rest : List Char} (ha : hexValue? a = some w)
      (hb : hexValue? b = some x) (hc : hexValue? c = some y) (hd : hexValue? d = some z) :
      Code (a :: b :: c :: d :: rest) (((w * 16 + x) * 16 + y) * 16 + z) rest

/-- The number of the character that two surrogates stand for. -/
def paired (lead trail : Nat) : Nat := (lead - 0xd800) * 0x400 + (trail - 0xdc00) + 0x10000

/-- The spelling of one character. -/
inductive Piece : List Char → Char → List Char → Prop where
  | plain {c : Char} {rest : List Char} (hcontrol : 0x20 ≤ c.toNat) (hquote : c ≠ '"')
      (hslash : c ≠ '\\') : Piece (c :: rest) c rest
  | short {letter meant : Char} {rest : List Char} (hletter : shortEscape? letter = some meant) :
      Piece ('\\' :: letter :: rest) meant rest
  | hex {text rest : List Char} {code : Nat} (hcode : Code text code rest)
      (hlead : isLead code = false) (htrail : isTrail code = false) :
      Piece ('\\' :: 'u' :: text) (Char.ofNat code) rest
  | pair {text more rest : List Char} {lead trail : Nat}
      (hfirst : Code text lead ('\\' :: 'u' :: more)) (hlead : isLead lead = true)
      (hsecond : Code more trail rest) (htrail : isTrail trail = true) :
      Piece ('\\' :: 'u' :: text) (Char.ofNat (paired lead trail)) rest

/-- The spelling of a string, from behind its opening quote to behind its closing one. -/
inductive Spells : List Char → List Char → List Char → Prop where
  | nil (rest : List Char) : Spells ('"' :: rest) [] rest
  | cons {text more meaning rest : List Char} {c : Char} (piece : Piece text c more)
      (spells : Spells more meaning rest) : Spells text (c :: meaning) rest

/-- A string whatever its escapes denote, from behind its opening quote. -/
inductive IsText : List Char → List Char → Prop where
  | nil (rest : List Char) : IsText ('"' :: rest) rest
  | plain {c : Char} {text rest : List Char} (hcontrol : 0x20 ≤ c.toNat) (hquote : c ≠ '"')
      (hslash : c ≠ '\\') (more : IsText text rest) : IsText (c :: text) rest
  | short {letter : Char} {text rest : List Char} (hletter : (shortEscape? letter).isSome = true)
      (more : IsText text rest) : IsText ('\\' :: letter :: text) rest
  | hex {text more rest : List Char} {code : Nat} (hcode : Code text code more)
      (isText : IsText more rest) : IsText ('\\' :: 'u' :: text) rest

section

variable {text more rest meaning done : List Char} {c : Char} {code : Nat}

/-! ## Blanks -/

theorem Blanks.skipBlanks_eq (h : Blanks text rest) : skipBlanks text = skipBlanks rest := by
  induction h with
  | nil => rfl
  | cons hblank _ ih => exact (List.dropWhile_cons_of_pos hblank).trans ih

/-- Blanks before a character that is none are skipped. -/
theorem Blanks.skipBlanks (h : Blanks text (c :: rest)) (hc : isBlank c = false) :
    skipBlanks text = c :: rest := by
  rw [h.skipBlanks_eq, Json.skipBlanks, List.dropWhile_cons_of_neg]
  rw [hc]
  exact Bool.false_ne_true

theorem Blanks.length_le (h : Blanks text rest) : rest.length ≤ text.length := by
  induction h with
  | nil => exact Nat.le_refl _
  | cons _ _ ih => exact Nat.le_succ_of_le ih

/-! ## Strings that are read -/

theorem Code.length (h : Code text code rest) : text.length = rest.length + 4 := by
  cases h
  rfl

theorem readTextFrom_plain (c : Char) (rest done : List Char) :
    readTextFrom .plain done (c :: rest) =
      if c = '"' then .ok (done.reverse, rest)
      else if c = '\\' then readTextFrom .escape done rest
      else if c.toNat < 0x20 then .error .controlCharacter
      else readTextFrom .plain (c :: done) rest := rfl

theorem readTextFrom_escape (c : Char) (rest done : List Char) :
    readTextFrom .escape done (c :: rest) =
      if c = 'u' then readTextFrom (.hex none 4 0) done rest
      else
        match shortEscape? c with
        | some meant => readTextFrom .plain (meant :: done) rest
        | none => .error .invalidEscape := rfl

theorem readTextFrom_u (text done : List Char) :
    readTextFrom .plain done ('\\' :: 'u' :: text) = readTextFrom (.hex none 4 0) done text := rfl

theorem readTextFrom_pair (lead : Nat) (text done : List Char) :
    readTextFrom (.pairBackslash lead) done ('\\' :: 'u' :: text) =
      readTextFrom (.hex (some lead) 4 0) done text := rfl

/-- Four digits are read one after the other, and the last of them may complete a character. -/
theorem Code.readTextFrom (h : Code text code rest) {lead : Option Nat} {meant : Option Char}
    {next : TextState} (hcomplete : complete lead code = .ok (meant, next)) (done : List Char) :
    readTextFrom (.hex lead 4 0) done text = readTextFrom next (meant.toList ++ done) rest := by
  obtain ⟨hfirst, hsecond, hthird, hfourth⟩ := h
  cases meant with
  | none | some =>
    simp only [Json.readTextFrom, hfirst, hsecond, hthird, hfourth, Nat.zero_mul, Nat.zero_add,
      hcomplete, Option.toList, List.cons_append, List.nil_append]

theorem complete_of_single (hlead : isLead code = false) (htrail : isTrail code = false) :
    complete none code = .ok (some (Char.ofNat code), .plain) := by
  rw [complete, htrail, hlead]
  rfl

/-- The first half of a pair completes no character. -/
theorem complete_of_lead (hlead : isLead code = true) :
    complete none code = .ok (none, .pairBackslash code) := by
  have htrail : isTrail code = false := by
    simp only [isLead, Bool.and_eq_true, decide_eq_true_eq] at hlead
    simp only [isTrail, Bool.and_eq_false_iff, decide_eq_false_iff_not]
    omega
  rw [complete, htrail, hlead]
  rfl

theorem Piece.readTextFrom (h : Piece text c rest) (done : List Char) :
    readTextFrom .plain done text = readTextFrom .plain (c :: done) rest := by
  cases h with
  | plain hcontrol hquote hslash =>
    rw [readTextFrom_plain, if_neg hquote, if_neg hslash, if_neg (Nat.not_lt.mpr hcontrol)]
  | @short letter _ _ hletter =>
    have hu : letter ≠ 'u' := by
      rintro rfl
      cases hletter
    rw [readTextFrom_plain, if_neg (by decide), if_pos rfl, readTextFrom_escape, if_neg hu, hletter]
  | hex hcode hlead htrail =>
    rw [readTextFrom_u, hcode.readTextFrom (complete_of_single hlead htrail)]
    rfl
  | @pair _ _ _ lead trail hfirst hlead hsecond htrail =>
    have hcomplete :
        complete (some lead) trail = .ok (some (Char.ofNat (paired lead trail)), .plain) := by
      rw [complete, if_pos htrail, paired]
    rw [readTextFrom_u, hfirst.readTextFrom (complete_of_lead hlead), Option.toList,
      List.nil_append, readTextFrom_pair, hsecond.readTextFrom hcomplete]
    rfl

theorem Spells.readTextFrom (h : Spells text meaning rest) (done : List Char) :
    readTextFrom .plain done text = .ok (done.reverse ++ meaning, rest) := by
  induction h generalizing done with
  | nil => rw [readTextFrom_plain, if_pos rfl, List.append_nil]
  | cons piece _ ih => rw [piece.readTextFrom, ih, List.reverse_cons, List.append_assoc]; rfl

/-- A string that denotes a text is read to its end. -/
theorem Spells.readText (h : Spells text meaning rest) : readText text = .ok (meaning, rest) :=
  h.readTextFrom []

theorem Piece.length_lt (h : Piece text c rest) : rest.length < text.length := by
  cases h with
  | plain => exact Nat.lt_succ_self _
  | short =>
    simp only [List.length_cons]
    omega
  | hex hcode =>
    have hlength := hcode.length
    simp only [List.length_cons]
    omega
  | pair hfirst _ hsecond =>
    have hlength := hfirst.length
    have hlength' := hsecond.length
    simp only [List.length_cons] at hlength ⊢
    omega

theorem Spells.length_lt (h : Spells text meaning rest) : rest.length < text.length := by
  induction h with
  | nil => exact Nat.lt_succ_self _
  | cons piece _ ih => exact Nat.lt_trans ih piece.length_lt

/-! ## Strings that are skipped -/

theorem skipTextFrom_plain (c : Char) (rest : List Char) :
    skipTextFrom .plain (c :: rest) =
      if c = '"' then .ok rest
      else if c = '\\' then skipTextFrom .escape rest
      else if c.toNat < 0x20 then .error .controlCharacter
      else skipTextFrom .plain rest := rfl

theorem skipTextFrom_escape (c : Char) (rest : List Char) :
    skipTextFrom .escape (c :: rest) =
      if c = 'u' then skipTextFrom (.hex none 4 0) rest
      else if (shortEscape? c).isSome then skipTextFrom .plain rest
      else .error .invalidEscape := rfl

theorem Code.skipTextFrom (h : Code text code rest) :
    skipTextFrom (.hex none 4 0) text = skipTextFrom .plain rest := by
  obtain ⟨hfirst, hsecond, hthird, hfourth⟩ := h
  simp only [Json.skipTextFrom, hfirst, hsecond, hthird, hfourth, Option.isSome_some, if_true]

/-- A string is skipped to its end, whatever its escapes denote. -/
theorem IsText.skipText (h : IsText text rest) : skipText text = .ok rest := by
  rw [Json.skipText]
  induction h with
  | nil => rw [skipTextFrom_plain, if_pos rfl]
  | plain hcontrol hquote hslash _ ih =>
    rw [skipTextFrom_plain, if_neg hquote, if_neg hslash, if_neg (Nat.not_lt.mpr hcontrol), ih]
  | @short letter _ _ hletter _ ih =>
    have hu : letter ≠ 'u' := by
      rintro rfl
      cases hletter
    rw [skipTextFrom_plain, if_neg (by decide), if_pos rfl, skipTextFrom_escape, if_neg hu,
      if_pos hletter, ih]
  | hex hcode _ ih =>
    rw [skipTextFrom_plain, if_neg (by decide), if_pos rfl, skipTextFrom_escape, if_pos rfl,
      hcode.skipTextFrom, ih]

theorem IsText.length_lt (h : IsText text rest) : rest.length < text.length := by
  induction h with
  | nil => exact Nat.lt_succ_self _
  | plain _ _ _ _ ih => exact Nat.lt_succ_of_lt ih
  | short _ _ ih => exact Nat.lt_succ_of_lt (Nat.lt_succ_of_lt ih)
  | hex hcode _ ih =>
    have hlength := hcode.length
    simp only [List.length_cons]
    omega

/-! ## Strings that are written -/

theorem hexValue?_digitChar : ∀ digit < 16, hexValue? (Nat.digitChar digit) = some digit := by
  decide

/-- What is written for a character spells it. -/
theorem piece_escapeChar (c : Char) (rest : List Char) : Piece (escapeChar c ++ rest) c rest := by
  unfold escapeChar
  split
  · subst c
    exact .short rfl
  split
  · subst c
    exact .short rfl
  split
  · subst c
    exact .short rfl
  split
  · subst c
    exact .short rfl
  split
  · subst c
    exact .short rfl
  split
  · subst c
    exact .short rfl
  split
  · subst c
    exact .short rfl
  split
  · rename_i hcontrol
    have hcode : Code ('0' :: '0' :: Nat.digitChar (c.toNat / 16) :: Nat.digitChar (c.toNat % 16) ::
        rest) (((0 * 16 + 0) * 16 + c.toNat / 16) * 16 + c.toNat % 16) rest :=
      .mk rfl rfl (hexValue?_digitChar _ (by omega)) (hexValue?_digitChar _ (by omega))
    have hnumber : ((0 * 16 + 0) * 16 + c.toNat / 16) * 16 + c.toNat % 16 = c.toNat := by omega
    rw [hnumber] at hcode
    have hplain : isLead c.toNat = false ∧ isTrail c.toNat = false := by
      simp only [isLead, isTrail, Bool.and_eq_false_iff, decide_eq_false_iff_not]
      omega
    have hpiece := Piece.hex hcode hplain.1 hplain.2
    rwa [Char.ofNat_toNat] at hpiece
  · rename_i hquote hslash _ _ _ _ _ hcontrol
    exact .plain (Nat.not_lt.mp hcontrol) hquote hslash

/-- What is written for a string spells it. -/
theorem spells_escaped (meaning rest : List Char) :
    Spells (meaning.flatMap escapeChar ++ '"' :: rest) meaning rest := by
  induction meaning with
  | nil => exact .nil rest
  | cons c meaning ih =>
    rw [List.flatMap_cons, List.append_assoc]
    exact .cons (piece_escapeChar c _) ih

theorem writeString_append (text : String) (rest : List Char) :
    writeString text ++ rest = '"' :: (text.toList.flatMap escapeChar ++ '"' :: rest) := by
  simp only [writeString, List.cons_append, List.append_assoc, List.nil_append]

end

end YieldLock.Json
