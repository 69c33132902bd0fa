import YieldLock.Proofs.Numerals

/-!
# Values of any kind are skipped

The grammar of values, of any depth. What is skipped is scanned from one scalar to
the next, and after each of them containers are closed, so the work that a value takes
is a number of rounds after which the containers around it are as they were. Main
statements: `WellFormed.scans`, by which every part of a value is scanned, and
`WellFormed.skipValue`.
-/

namespace YieldLock.Json

namespace Container

def opening : Container → Char
  | list => '['
  | object => '{'

end Container

/-- What stands before a value in a container: in an object it has a key. -/
inductive Label : Container → List Char → List Char → Prop where
  | list {text rest : List Char} (blanks : Blanks text rest) : Label .list text rest
  | object {text key behind value rest : List Char} (before : Blanks text ('"' :: key))
      (isText : IsText key behind) (after : Blanks behind (':' :: value))
      (blanks : Blanks value rest) : Label .object text rest

/-- What a grammar of values has to say something about. -/
inductive Part where
  | value
  /-- The values in a container, at least one. -/
  | items (container : Container)
  deriving DecidableEq, Repr

/-- The grammar of values: a text begins with such a part, and then comes the rest. -/
inductive WellFormed : Part → List Char → List Char → Prop where
  | null (rest : List Char) : WellFormed .value ('n' :: 'u' :: 'l' :: 'l' :: rest) rest
  | isTrue (rest : List Char) : WellFormed .value ('t' :: 'r' :: 'u' :: 'e' :: rest) rest
  | isFalse (rest : List Char) : WellFormed .value ('f' :: 'a' :: 'l' :: 's' :: 'e' :: rest) rest
  | number {text rest : List Char} (isNumber : IsNumber text rest) : WellFormed .value text rest
  | text {text rest : List Char} (isText : IsText text rest) : WellFormed .value ('"' :: text) rest
  | empty {container : Container} {text rest : List Char}
      (blanks : Blanks text (container.closing :: rest)) :
      WellFormed .value (container.opening :: text) rest
  | nest {container : Container} {text rest : List Char}
      (items : WellFormed (.items container) text (container.closing :: rest)) :
      WellFormed .value (container.opening :: text) rest
  | last {container : Container} {text inner after rest : List Char}
      (label : Label container text inner) (value : WellFormed .value inner after)
      (blanks : Blanks after rest) : WellFormed (.items container) text rest
  | more {container : Container} {text inner after next rest : List Char}
      (label : Label container text inner) (value : WellFormed .value inner after)
      (blanks : Blanks after (',' :: next)) (items : WellFormed (.items container) next rest) :
      WellFormed (.items container) text rest

/-- Goes on behind a value, until no container is open. -/
def resume (fuel : Nat) : List Container × List Char → Except ReadError (List Char)
  | ([], rest) => .ok rest
  | (container :: outer, rest) => skipRounds fuel (container :: outer) rest

section

variable {container : Container} {outer : List Container} {fuel : Nat}
  {text inner before rest : List Char}

theorem skipRounds_succ (fuel : Nat) (outer : List Container) (text : List Char) :
    skipRounds (fuel + 1) outer text = (skipHead outer text).bind (resume fuel) := by
  rw [skipRounds]
  cases skipHead outer text with
  | error error => rfl
  | ok result =>
    obtain ⟨outer, rest⟩ := result
    cases outer <;> rfl

theorem bind_resume (fuel : Nat) (container : Container) (outer : List Container)
    (entered : Except ReadError (List Char)) :
    (entered.map fun rest ↦ (container :: outer, rest)).bind (resume fuel) =
      entered.bind (skipRounds fuel (container :: outer)) := by
  cases entered <;> rfl

theorem skipBlanks_eq_self {c : Char} (h : isBlank c = false) :
    skipBlanks (c :: rest) = c :: rest :=
  (Blanks.nil (c :: rest)).skipBlanks h

/-- A value begins with a character that is no blank and closes nothing. -/
theorem WellFormed.exists_cons (h : WellFormed .value text rest) :
    ∃ c more, text = c :: more ∧ isBlank c = false ∧ c ≠ ']' := by
  cases h with
  | null | isTrue | isFalse | text => exact ⟨_, _, rfl, rfl, by decide⟩
  | number isNumber =>
    obtain ⟨c, more, rfl, rfl | hdigit⟩ := isNumber.exists_cons
    · exact ⟨'-', more, rfl, rfl, by decide⟩
    · refine ⟨c, more, rfl, isBlank_of_isDigit hdigit, ?_⟩
      rintro rfl
      cases hdigit
  | @empty container | @nest container =>
    refine ⟨container.opening, _, rfl, ?_⟩
    cases container <;> exact ⟨rfl, by decide⟩

theorem WellFormed.skipBlanks_eq (h : WellFormed .value text rest) :
    skipBlanks text = text := by
  obtain ⟨c, more, rfl, hblank, _⟩ := h.exists_cons
  exact skipBlanks_eq_self hblank

theorem Label.length_le (h : Label container text rest) : rest.length ≤ text.length := by
  cases h with
  | list blanks => exact blanks.length_le
  | object before isText after blanks =>
    have hbefore := before.length_le
    have htext := isText.length_lt
    have hafter := after.length_le
    have hblanks := blanks.length_le
    simp only [List.length_cons] at hbefore hafter
    omega

/-- What stands before a value is passed over. -/
theorem Label.enter (h : Label container text inner) (hvalue : skipBlanks inner = inner)
    (hbefore : skipBlanks before = skipBlanks text) :
    ∃ next, enter container before = .ok next ∧ skipBlanks next = inner := by
  cases h with
  | list blanks => exact ⟨before, rfl, by rw [hbefore, blanks.skipBlanks_eq, hvalue]⟩
  | @object _ _ _ value _ hkey isText hcolon blanks =>
    refine ⟨value, ?_, by rw [blanks.skipBlanks_eq, hvalue]⟩
    rw [Json.enter, skipKey, hbefore, hkey.skipBlanks rfl]
    simp only [isText.skipText, hcolon.skipBlanks rfl, bind, Except.bind]

/-- The first character of what stands in a container does not close it. -/
theorem WellFormed.exists_cons_of_items (h : WellFormed (.items container) text rest) :
    ∃ c more, skipBlanks text = c :: more ∧ isBlank c = false ∧ c ≠ container.closing := by
  have hlabel {inner after : List Char} (label : Label container text inner)
      (value : WellFormed .value inner after) :
      ∃ c more, skipBlanks text = c :: more ∧ isBlank c = false ∧ c ≠ container.closing := by
    cases label with
    | list blanks =>
      obtain ⟨c, more, rfl, hblank, hclosing⟩ := value.exists_cons
      exact ⟨c, more, blanks.skipBlanks hblank, hblank, hclosing⟩
    | object hkey => exact ⟨'"', _, hkey.skipBlanks rfl, rfl, by decide⟩
  cases h with
  | last label value | more label value => exact hlabel label value

/-- What is to be shown of each part: so many rounds take the scanner behind it, with the containers
around it as they were. -/
def Scans : Part → List Char → List Char → Prop
  | .value, text, rest =>
    ∃ rounds, 0 < rounds ∧ rounds + rest.length ≤ text.length ∧
      ∀ fuel outer before, skipBlanks before = text →
        skipRounds (fuel + rounds) outer before = (closeContainers outer rest).bind (resume fuel)
  | .items container, text, last =>
    ∀ rest, last = container.closing :: rest →
      ∃ rounds, rounds + rest.length < text.length ∧
        ∀ fuel outer before, skipBlanks before = skipBlanks text →
          (enter container before).bind (skipRounds (fuel + rounds) (container :: outer)) =
            (closeContainers outer rest).bind (resume fuel)

/-- A scalar, or an empty container, takes one round. -/
theorem scans_of_skipHead (hlength : rest.length < text.length)
    (hhead : ∀ outer before, skipBlanks before = text →
      skipHead outer before = closeContainers outer rest) : Scans .value text rest := by
  refine ⟨1, Nat.one_pos, by omega, fun fuel outer before hbefore ↦ ?_⟩
  rw [skipRounds_succ, hhead outer before hbefore]

theorem closing_ne_comma (container : Container) : container.closing ≠ ',' := by
  cases container <;> decide

theorem isBlank_closing (container : Container) : isBlank container.closing = false := by
  cases container <;> rfl

theorem closeContainers_closing (blanks : Blanks text (container.closing :: rest))
    (outer : List Container) :
    closeContainers (container :: outer) text = closeContainers outer rest := by
  rw [closeContainers, blanks.skipBlanks (isBlank_closing container)]
  simp only [if_neg (closing_ne_comma container), if_true]

theorem closeContainers_comma (blanks : Blanks text (',' :: rest)) (outer : List Container) :
    closeContainers (container :: outer) text =
      (enter container rest).map fun rest ↦ (container :: outer, rest) := by
  rw [closeContainers, blanks.skipBlanks rfl]
  simp only [if_true]

theorem skipHead_opening (container : Container) (outer : List Container)
    (hbefore : skipBlanks before = container.opening :: text) :
    skipHead outer before = openContainer container outer text := by
  rw [skipHead, hbefore]
  cases container <;> rfl

theorem IsNumber.skipHead (h : IsNumber text rest) (outer : List Container)
    (hbefore : skipBlanks before = text) : skipHead outer before = closeContainers outer rest := by
  obtain ⟨found, hfound⟩ := h.exists_numeral .invalidNumber
  obtain ⟨c, more, rfl, hstart⟩ := h.exists_cons
  have hstarts : (c = '-' || c.isDigit) = true := by
    rwa [Bool.or_eq_true, decide_eq_true_iff]
  rw [Json.skipHead, hbefore]
  split
  case h_1 hnil => cases hnil
  case h_8 hcons =>
    cases hcons
    rw [if_pos hstarts, hfound]
    rfl
  -- No number begins with one of the other characters.
  all_goals
    rename_i hcons
    cases hcons
    exact absurd hstart (by decide)

/-- Every part of a value is scanned. -/
theorem WellFormed.scans {part : Part} (h : WellFormed part text rest) : Scans part text rest := by
  induction h with
  | null rest | isTrue rest | isFalse rest =>
    refine scans_of_skipHead (by simp only [List.length_cons]; omega) fun outer before hbefore ↦ ?_
    rw [skipHead, hbefore]
    rfl
  | number isNumber =>
    exact scans_of_skipHead isNumber.length_lt fun outer before ↦ isNumber.skipHead outer
  | text isText =>
    refine scans_of_skipHead (Nat.lt_succ_of_lt isText.length_lt) fun outer before hbefore ↦ ?_
    rw [skipHead, hbefore]
    simp only [isText.skipText, bind, Except.bind]
  | @empty container text rest blanks =>
    have hlength := blanks.length_le
    refine scans_of_skipHead (by simp only [List.length_cons] at hlength ⊢; omega)
      fun outer before hbefore ↦ ?_
    rw [skipHead_opening container outer hbefore, openContainer,
      blanks.skipBlanks (isBlank_closing container)]
    simp only [if_true]
  | @nest container text rest items ih =>
    obtain ⟨rounds, hlength, hscans⟩ := ih rest rfl
    obtain ⟨c, more, htext, hblank, hclosing⟩ := items.exists_cons_of_items
    refine ⟨rounds + 1, Nat.succ_pos _, by simp only [List.length_cons]; omega,
      fun fuel outer before hbefore ↦ ?_⟩
    rw [← Nat.add_assoc, skipRounds_succ, skipHead_opening container outer hbefore, openContainer,
      htext]
    simp only [if_neg hclosing]
    rw [bind_resume]
    exact hscans fuel outer (c :: more) (by rw [htext, skipBlanks_eq_self hblank])
  | @last container text inner after _ label value blanks ih =>
    rintro rest rfl
    obtain ⟨rounds, hpos, hlength, hscans⟩ := ih
    have hlabel := label.length_le
    have hafter := blanks.length_le
    refine ⟨rounds, ?_, fun fuel outer before hbefore ↦ ?_⟩
    · simp only [List.length_cons] at hafter
      omega
    · obtain ⟨next, hnext, hinner⟩ := label.enter value.skipBlanks_eq hbefore
      rw [hnext, ← closeContainers_closing blanks outer]
      exact hscans fuel (container :: outer) next hinner
  | @more container text inner after next _ label value blanks items ih ihItems =>
    rintro rest rfl
    obtain ⟨rounds, hpos, hlength, hscans⟩ := ih
    obtain ⟨others, hothers, hlater⟩ := ihItems rest rfl
    have hlabel := label.length_le
    have hafter := blanks.length_le
    refine ⟨others + rounds, ?_, fun fuel outer before hbefore ↦ ?_⟩
    · simp only [List.length_cons] at hafter
      omega
    · obtain ⟨following, hnext, hinner⟩ := label.enter value.skipBlanks_eq hbefore
      calc
        _ = skipRounds (fuel + others + rounds) (container :: outer) following := by
          rw [hnext, Nat.add_assoc]
          rfl
        _ = (closeContainers (container :: outer) after).bind (resume (fuel + others)) :=
          hscans (fuel + others) (container :: outer) following hinner
        _ = (enter container next).bind (skipRounds (fuel + others) (container :: outer)) := by
          rw [closeContainers_comma blanks, bind_resume]
        _ = _ := hlater fuel outer next rfl

/-- A value of any kind and depth is skipped. -/
theorem WellFormed.skipValue (h : WellFormed .value text rest) {bound : Nat}
    (hbefore : skipBlanks before = text) (hbound : text.length ≤ bound) :
    skipValue bound before = .ok rest := by
  obtain ⟨rounds, _, hlength, hscans⟩ := h.scans
  have hfuel : bound = (bound - rounds) + rounds := by omega
  rw [Json.skipValue, hfuel, hscans _ [] before hbefore]
  rfl

theorem WellFormed.length_lt (h : WellFormed .value text rest) : rest.length < text.length := by
  obtain ⟨rounds, hpos, hlength, _⟩ := h.scans
  omega

end

end YieldLock.Json
