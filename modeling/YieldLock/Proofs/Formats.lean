import Mathlib.Data.List.Forall2
import YieldLock.Json.Shape
import YieldLock.Proofs.WellFormed

/-!
# How values with named fields are written

A format is the grammar of a value with named fields. Its members stand in any order,
with members of other names and with blanks between them, or its first fields stand in
an array. A shape fits a format if it reads each field as it is written. Main
statements: `Format.Members.members` and `Format.Elements.elements`, the members and
the elements of a format are read one after the other, and `Format.Fits.readAll`.
-/

namespace YieldLock.Json

/-- How a field is written: its name, which values have it, and the texts that add it to a value. -/
structure Entry (ρ : Type) where
  name : String
  isGiven : ρ → Bool
  Gives : List Char → ρ → ρ → List Char → Prop

structure Format (ρ : Type) where
  entries : List (Entry ρ)
  start : ρ
  /-- Members of other names may stand between the fields. -/
  skipsUnknown : Bool
  /-- The last fields may be missing in an array. -/
  mayBeShort : Bool

/-- What stands before a member or an element, the first one or a later one. -/
inductive Comma : Bool → List Char → List Char → Prop where
  | first {text rest : List Char} (blanks : Blanks text rest) : Comma true text rest
  | next {text after rest : List Char} (blanks : Blanks text (',' :: after))
      (more : Blanks after rest) : Comma false text rest

/-- A name in quotes and the colon behind it. -/
inductive Named : List Char → List Char → List Char → Prop where
  | mk {text name behind rest : List Char} (spells : Spells text name behind)
      (blanks : Blanks behind (':' :: rest)) : Named ('"' :: text) name rest

namespace Format

variable {ρ : Type}

/-- The members of an object and its end. What they add to a value is added in their order, and no
field is given twice. -/
inductive Members (format : Format ρ) : Bool → List Char → ρ → ρ → List Char → Prop where
  | done {isFirst : Bool} {text rest : List Char} {before : ρ}
      (blanks : Blanks text ('}' :: rest)) :
      Members format isFirst text before before rest
  | known {isFirst : Bool} {text key behind value more rest : List Char} {entry : Entry ρ}
      {before middle after : ρ} (comma : Comma isFirst text key)
      (named : Named key entry.name.toList behind) (blanks : Blanks behind value)
      (hmem : entry ∈ format.entries) (hfree : entry.isGiven before = false)
      (gives : entry.Gives value before middle more)
      (members : Members format false more middle after rest) :
      Members format isFirst text before after rest
  | unknown {isFirst : Bool} {text key name behind value more rest : List Char} {before after : ρ}
      (hskips : format.skipsUnknown = true) (comma : Comma isFirst text key)
      (named : Named key name behind) (blanks : Blanks behind value)
      (hname : ∀ entry ∈ format.entries, entry.name.toList ≠ name)
      (wellFormed : WellFormed .value value more)
      (members : Members format false more before after rest) :
      Members format isFirst text before after rest

/-- The elements of an array and its end: some fields from the first one on. -/
inductive Elements (mayBeShort : Bool) :
    List (Entry ρ) → Bool → List Char → ρ → ρ → List Char → Prop where
  | done {entries : List (Entry ρ)} {isFirst : Bool} {text rest : List Char} {before : ρ}
      (hend : entries = [] ∨ mayBeShort = true) (blanks : Blanks text (']' :: rest)) :
      Elements mayBeShort entries isFirst text before before rest
  | more {entry : Entry ρ} {entries : List (Entry ρ)} {isFirst : Bool}
      {text value behind rest : List Char} {before middle after : ρ}
      (comma : Comma isFirst text value) (hfree : entry.isGiven before = false)
      (gives : entry.Gives value before middle behind)
      (elements : Elements mayBeShort entries false behind middle after rest) :
      Elements mayBeShort (entry :: entries) isFirst text before after rest

inductive Object (format : Format ρ) : List Char → ρ → List Char → Prop where
  | mk {text rest : List Char} {after : ρ}
      (members : format.Members true text format.start after rest) :
      Object format ('{' :: text) after rest

inductive Array (format : Format ρ) : List Char → ρ → List Char → Prop where
  | mk {text rest : List Char} {after : ρ}
      (elements : Elements format.mayBeShort format.entries true text format.start after rest) :
      Array format ('[' :: text) after rest

/-- A value is written as an object or as an array. -/
def Value (format : Format ρ) (text : List Char) (value : ρ) (rest : List Char) : Prop :=
  format.Object text value rest ∨ format.Array text value rest

end Format

/-- A text is written in such a way, but for blanks around it. -/
def IsWhole {ρ : Type} (Written : List Char → ρ → List Char → Prop) (text : String) (value : ρ) :
    Prop :=
  ∃ inner rest, Blanks text.toList inner ∧ Written inner value rest ∧ Blanks rest []

variable {ρ π α : Type}

/-- A field is read as its entry is written; a value that is refused stays so. -/
structure Entry.Fits (complete : ρ → Except ReadError π) (entry : Entry ρ) (field : Field π) :
    Prop where
  name : field.name = entry.name
  isGiven : ∀ {value : ρ} {parts : π}, complete value = .ok parts →
    field.isGiven parts = entry.isGiven value
  starts : ∀ {text rest : List Char} {before after : ρ}, entry.Gives text before after rest →
    ∃ c more, text = c :: more ∧ isBlank c = false ∧ c ≠ ']' ∧ rest.length < text.length
  reads : ∀ {text rest blank : List Char} {before after : ρ} {parts : π},
    entry.Gives text before after rest → complete before = .ok parts → skipBlanks blank = text →
      field.read parts blank = (complete after).map fun parts ↦ (parts, rest)
  keeps : ∀ {text rest : List Char} {before after : ρ} {error : ReadError},
    entry.Gives text before after rest → entry.isGiven before = false →
      complete before = .error error → complete after = .error error

/-- A shape reads a value as it is written, after the parts that are written are completed. -/
structure Format.Fits (complete : ρ → Except ReadError π) (format : Format ρ) (shape : Shape π α) :
    Prop where
  fields : List.Forall₂ (Entry.Fits complete) format.entries shape.fields
  nodup : (format.entries.map Entry.name).Nodup
  start : complete format.start = .ok shape.start
  skips : format.skipsUnknown = true → shape.skipsUnknown = true
  short : format.mayBeShort = true → shape.expectedLength = none

section

variable {text key name behind before rest : List Char} {isFirst : Bool}

theorem Comma.length_le (h : Comma isFirst text rest) : rest.length ≤ text.length := by
  cases h with
  | first blanks => exact blanks.length_le
  | next blanks more =>
    have hblanks := blanks.length_le
    have hmore := more.length_le
    simp only [List.length_cons] at hblanks
    omega

theorem Named.length_lt (h : Named key name rest) : rest.length < key.length := by
  obtain ⟨spells, blanks⟩ := h
  have hspells := spells.length_lt
  have hblanks := blanks.length_le
  simp only [List.length_cons] at hblanks ⊢
  omega

/-- The value of a member is shorter than the text that begins with the member. -/
theorem Comma.length_value_lt {behind value : List Char} (h : Comma isFirst text key)
    (named : Named key name behind) (blanks : Blanks behind value) :
    value.length < text.length :=
  Nat.lt_of_le_of_lt blanks.length_le (Nat.lt_of_lt_of_le named.length_lt h.length_le)

/-- A name that is written stands before its colon. -/
theorem named_writeString (name : String) (rest : List Char) :
    Named (writeString name ++ ':' :: rest) name.toList rest := by
  rw [writeString_append]
  exact .mk (spells_escaped ..) (.nil _)

/-- The quote of a key is found behind the comma. -/
theorem Comma.keyStart (h : Comma isFirst text ('"' :: key)) :
    ∃ c more, skipBlanks text = c :: more ∧ c ≠ '}' ∧ Shape.keyStart isFirst c more = .ok key := by
  cases h with
  | first blanks => exact ⟨'"', key, blanks.skipBlanks rfl, by decide, rfl⟩
  | next blanks more =>
    refine ⟨',', _, blanks.skipBlanks rfl, by decide, ?_⟩
    simp only [Shape.keyStart, more.skipBlanks (c := '"') rfl, Bool.false_eq_true, if_false,
      if_true]

/-- The start of an element is found behind the comma. -/
theorem Comma.elementStart {c : Char} (h : Comma isFirst text (c :: rest))
    (hblank : isBlank c = false) (hclosing : c ≠ ']') :
    Shape.elementStart isFirst text = .ok (some (c :: rest)) := by
  cases h with
  | first blanks =>
    rw [Shape.elementStart, blanks.skipBlanks hblank]
    simp only [if_neg hclosing, if_true]
  | next blanks more =>
    rw [Shape.elementStart, blanks.skipBlanks rfl]
    simp only [more.skipBlanks hblank, Bool.false_eq_true, if_false, if_true,
      show (',' : Char) ≠ ']' from by decide]
    split
    · exact absurd (List.cons.inj ‹_›).1 hclosing
    · cases ‹_›
    · rfl

theorem Shape.colon_of_blanks (h : Blanks text (':' :: rest)) : Shape.colon text = .ok rest := by
  rw [Shape.colon, h.skipBlanks rfl]
  rfl

theorem Shape.arrayEnd_of_blanks (h : Blanks text (']' :: rest)) :
    Shape.arrayEnd text = .ok rest := by
  rw [Shape.arrayEnd, h.skipBlanks rfl]
  rfl

/-- Where an array ends, there are no elements. -/
theorem Shape.elements_of_blanks {π : Type} (h : Blanks text (']' :: rest))
    (fields : List (Field π)) (parts : π) :
    Shape.elements fields isFirst parts text = .ok ((parts, 0), text) := by
  cases fields with
  | nil => rfl
  | cons =>
    rw [Shape.elements, Shape.elementStart, h.skipBlanks rfl]
    rfl

end

section

variable {complete : ρ → Except ReadError π} {entries : List (Entry ρ)} {fields : List (Field π)}

/-- The field of an entry is found under the name of the entry. -/
theorem exists_find? (hfits : List.Forall₂ (Entry.Fits complete) entries fields)
    (hnodup : (entries.map Entry.name).Nodup) {entry : Entry ρ} (hmem : entry ∈ entries) :
    ∃ field, fields.find? (·.name == entry.name) = some field ∧ entry.Fits complete field := by
  induction hfits with
  | nil => cases hmem
  | @cons other field entries fields hfit _ ih =>
    rw [List.map_cons, List.nodup_cons] at hnodup
    obtain rfl | hmem := List.mem_cons.mp hmem
    · exact ⟨field, List.find?_cons_of_pos (by rw [hfit.name, beq_self_eq_true]), hfit⟩
    · have hne : other.name ≠ entry.name := fun hname ↦
        hnodup.1 (hname ▸ List.mem_map_of_mem hmem)
      rw [List.find?_cons_of_neg (by rw [hfit.name, beq_iff_eq]; exact hne)]
      exact ih hnodup.2 hmem

theorem find?_eq_none (hfits : List.Forall₂ (Entry.Fits complete) entries fields) {name : String}
    (hname : ∀ entry ∈ entries, entry.name ≠ name) : fields.find? (·.name == name) = none := by
  induction hfits with
  | nil => rfl
  | @cons other field entries fields hfit _ ih =>
    rw [List.forall_mem_cons] at hname
    rw [List.find?_cons_of_neg (by rw [hfit.name, beq_iff_eq]; exact hname.1)]
    exact ih hname.2

/-- An element is read, and then the elements after it. -/
theorem Entry.Fits.elements_cons {entry : Entry ρ} {field : Field π} {isFirst : Bool}
    {text value rest : List Char} {before after : ρ} {parts : π} (hfit : entry.Fits complete field)
    (comma : Comma isFirst text value) (gives : entry.Gives value before after rest)
    (hparts : complete before = .ok parts) (fields : List (Field π)) :
    Shape.elements (field :: fields) isFirst parts text =
      ((complete after).map fun parts ↦ (parts, rest)).bind fun (parts, rest) ↦
        (Shape.elements fields false parts rest).map fun ((parts, count), rest) ↦
          ((parts, count + 1), rest) := by
  obtain ⟨c, _, rfl, hblank, hclosing, _⟩ := hfit.starts gives
  rw [Shape.elements, comma.elementStart hblank hclosing,
    ← hfit.reads gives hparts (skipBlanks_eq_self hblank)]
  rfl

end

namespace Format

section

variable {complete : ρ → Except ReadError π} {format : Format ρ} {shape : Shape π α}
  {isFirst : Bool} {text key name behind value more inner rest : List Char}
  {before middle after : ρ} {parts : π} {entry : Entry ρ} {fuel : Nat}

/-- A member is read behind its key, and then the members after it. -/
theorem exists_members_succ (shape : Shape π α) (comma : Comma isFirst text key)
    (named : Named key name behind) (fuel : Nat) (parts : π) :
    ∃ inner, Shape.colon inner = .ok behind ∧
      shape.members (fuel + 1) isFirst parts text =
        (shape.member fuel (String.ofList name) parts inner).bind fun (parts, rest) ↦
          shape.members fuel false parts rest := by
  obtain ⟨spells, blanks⟩ := named
  obtain ⟨c, more, htext, hclosing, hkey⟩ := comma.keyStart
  refine ⟨_, Shape.colon_of_blanks blanks, ?_⟩
  rw [Shape.members, htext]
  simp only [if_neg hclosing, hkey, spells.readText, bind, Except.bind]

/-- The value of a field is read. -/
theorem Fits.member (hfits : format.Fits complete shape) (hmem : entry ∈ format.entries)
    (hfree : entry.isGiven before = false) (hparts : complete before = .ok parts)
    (gives : entry.Gives value before middle more) (blanks : Blanks behind value)
    (hcolon : Shape.colon inner = .ok behind) :
    shape.member fuel entry.name parts inner =
      (complete middle).map fun parts ↦ (parts, more) := by
  obtain ⟨field, hfind, hfit⟩ := exists_find? hfits.fields hfits.nodup hmem
  obtain ⟨c, _, rfl, hblank, _⟩ := hfit.starts gives
  rw [Shape.member, hfind]
  simp only [hfit.isGiven hparts, hfree, Bool.false_eq_true, if_false, hcolon, bind, Except.bind]
  exact hfit.reads gives hparts (blanks.skipBlanks hblank)

/-- The value of a member of another name is skipped. -/
theorem Fits.member_unknown (hfits : format.Fits complete shape)
    (hskips : format.skipsUnknown = true)
    (hname : ∀ entry ∈ format.entries, entry.name.toList ≠ name)
    (wellFormed : WellFormed .value value more) (blanks : Blanks behind value)
    (hcolon : Shape.colon inner = .ok behind) (hfuel : value.length ≤ fuel) (parts : π) :
    shape.member fuel (String.ofList name) parts inner = .ok (parts, more) := by
  have hnone : shape.fields.find? (·.name == String.ofList name) = none := by
    refine find?_eq_none hfits.fields fun entry hmem heq ↦ hname entry hmem ?_
    rw [heq, String.toList_ofList]
  have hvalue : skipBlanks behind = value := by
    rw [blanks.skipBlanks_eq, wellFormed.skipBlanks_eq]
  rw [Shape.member, hnone]
  simp only [hfits.skips hskips, if_true, hcolon, wellFormed.skipValue hvalue hfuel, bind,
    Except.bind, pure, Except.pure]

/-- A value that is refused stays so whatever members are added. -/
theorem Members.keeps (h : format.Members isFirst text before after rest)
    (hfits : format.Fits complete shape) {error : ReadError}
    (herror : complete before = .error error) : complete after = .error error := by
  induction h with
  | done => exact herror
  | known _ _ _ hmem hfree gives _ ih =>
    obtain ⟨field, _, hfit⟩ := exists_find? hfits.fields hfits.nodup hmem
    exact ih (hfit.keeps gives hfree herror)
  | unknown _ _ _ _ _ _ _ ih => exact ih herror

/-- The members of an object are read as they are written. -/
theorem Members.members (h : format.Members isFirst text before after rest)
    (hfits : format.Fits complete shape) (hparts : complete before = .ok parts)
    (hfuel : text.length < fuel) :
    shape.members fuel isFirst parts text = (complete after).map fun parts ↦ (parts, rest) := by
  induction h generalizing parts fuel with
  | done blanks =>
    obtain ⟨fuel, rfl⟩ := Nat.exists_eq_add_of_lt hfuel
    rw [hparts, Shape.members, blanks.skipBlanks rfl]
    simp only [if_true]
    rfl
  | @known isFirst text key behind value more rest entry before middle after comma named blanks hmem
      hfree gives members ih =>
    obtain ⟨fuel, rfl⟩ : ∃ less, fuel = less + 1 := ⟨fuel - 1, by omega⟩
    obtain ⟨field, _, hfit⟩ := exists_find? hfits.fields hfits.nodup hmem
    obtain ⟨_, _, _, _, _, hmore⟩ := hfit.starts gives
    have hlength : more.length < fuel := by
      have hvalue := comma.length_value_lt named blanks
      omega
    obtain ⟨inner, hcolon, hstep⟩ := exists_members_succ shape comma named fuel parts
    rw [hstep, String.ofList_toList, hfits.member hmem hfree hparts gives blanks hcolon]
    cases hmiddle : complete middle with
    | error error =>
      rw [members.keeps hfits hmiddle]
      rfl
    | ok parts => exact ih hmiddle hlength
  | @unknown isFirst text key name behind value more rest before after hskips comma named blanks
      hname wellFormed members ih =>
    obtain ⟨fuel, rfl⟩ : ∃ less, fuel = less + 1 := ⟨fuel - 1, by omega⟩
    have hmore := wellFormed.length_lt
    have hvalue := comma.length_value_lt named blanks
    obtain ⟨inner, hcolon, hstep⟩ := exists_members_succ shape comma named fuel parts
    rw [hstep, hfits.member_unknown hskips hname wellFormed blanks hcolon (by omega)]
    exact ih hparts (by omega)

/-- A value that is refused stays so whatever elements are added. -/
theorem Elements.keeps {mayBeShort : Bool} {entries : List (Entry ρ)} {fields : List (Field π)}
    (h : Elements mayBeShort entries isFirst text before after rest)
    (hfits : List.Forall₂ (Entry.Fits complete) entries fields) {error : ReadError}
    (herror : complete before = .error error) : complete after = .error error := by
  induction h generalizing fields with
  | done => exact herror
  | more _ hfree gives _ ih =>
    cases hfits with
    | cons hfit hfits => exact ih hfits (hfit.keeps gives hfree herror)

/-- The elements of an array are read as they are written, and then its end comes. -/
theorem Elements.elements {mayBeShort : Bool} {entries : List (Entry ρ)} {fields : List (Field π)}
    (h : Elements mayBeShort entries isFirst text before after rest)
    (hfits : List.Forall₂ (Entry.Fits complete) entries fields)
    (hparts : complete before = .ok parts) :
    (∀ error, complete after = .error error →
      Shape.elements fields isFirst parts text = .error error) ∧
    (∀ parts', complete after = .ok parts' → ∃ count last,
      Shape.elements fields isFirst parts text = .ok ((parts', count), last) ∧
        Shape.arrayEnd last = .ok rest ∧ (count < fields.length → mayBeShort = true)) := by
  induction h generalizing fields parts with
  | @done entries isFirst text rest before hend blanks =>
    refine ⟨fun error herror ↦ ?_,
      fun parts' hparts' ↦ ⟨0, text, ?_, Shape.arrayEnd_of_blanks blanks, ?_⟩⟩
    · cases hparts.symm.trans herror
    · rw [Shape.elements_of_blanks blanks, Except.ok.inj (hparts.symm.trans hparts')]
    · obtain rfl | hshort := hend
      · cases hfits
        exact fun hless ↦ absurd hless (Nat.lt_irrefl 0)
      · exact fun _ ↦ hshort
  | @more entry entries isFirst text value behind rest before middle after comma hfree gives
      elements ih =>
    cases hfits with
    | @cons _ field _ fields hfit hfits =>
      rw [hfit.elements_cons comma gives hparts]
      cases hmiddle : complete middle with
      | error error =>
        refine ⟨fun other hother ↦ ?_, fun parts' hparts' ↦ ?_⟩
        · rw [Except.error.inj ((elements.keeps hfits hmiddle).symm.trans hother)]
          rfl
        · cases (elements.keeps hfits hmiddle).symm.trans hparts'
      | ok middleParts =>
        obtain ⟨hrefused, hlater⟩ := ih hfits hmiddle
        refine ⟨fun error herror ↦ ?_, fun parts' hparts' ↦ ?_⟩
        · change (Shape.elements fields false middleParts behind).map _ = _
          rw [hrefused error herror]
          rfl
        · obtain ⟨count, last, helements, hend, hshort⟩ := hlater parts' hparts'
          refine ⟨count + 1, last, ?_, hend, fun hless ↦ hshort (Nat.lt_of_succ_lt_succ hless)⟩
          change (Shape.elements fields false middleParts behind).map _ = _
          rw [helements]
          rfl

theorem Object.read (h : format.Object text after rest) (hfits : format.Fits complete shape)
    {blank : List Char} (hblank : skipBlanks blank = text) :
    shape.read blank =
      ((complete after).bind shape.complete).map fun value ↦ (value, rest) := by
  obtain ⟨members⟩ := h
  have hmembers := members.members hfits hfits.start (Nat.lt_succ_self _)
  rw [Shape.read, hblank]
  simp only
  rw [Shape.readObject, hmembers]
  cases complete after with
  | error error => rfl
  | ok parts => rfl

theorem Array.read (h : format.Array text after rest) (hfits : format.Fits complete shape)
    {blank : List Char} (hblank : skipBlanks blank = text) :
    shape.read blank =
      ((complete after).bind shape.complete).map fun value ↦ (value, rest) := by
  obtain ⟨elements⟩ := h
  obtain ⟨hrefused, hread⟩ := elements.elements hfits.fields hfits.start
  rw [Shape.read, hblank]
  simp only
  rw [Shape.readArray]
  cases hafter : complete after with
  | error error =>
    rw [hrefused error hafter]
    rfl
  | ok parts =>
    obtain ⟨count, last, hread, hend, hshort⟩ := hread parts hafter
    have hlength : ∀ expected, shape.expectedLength = some expected →
        ¬count < shape.fields.length := by
      intro expected hexpected hless
      cases (hfits.short (hshort hless)).symm.trans hexpected
    simp only [hread, bind, Except.bind, pure, Except.pure]
    cases hexpected : shape.expectedLength with
    | none =>
      simp only [hend]
      cases shape.complete parts <;> rfl
    | some expected =>
      simp only [if_neg (hlength expected hexpected), hend]
      cases shape.complete parts <;> rfl

/-- A value is read as it is written. -/
theorem Value.read (h : format.Value text after rest) (hfits : format.Fits complete shape)
    {blank : List Char} (hblank : skipBlanks blank = text) :
    shape.read blank =
      ((complete after).bind shape.complete).map fun value ↦ (value, rest) := by
  obtain object | array := h
  · exact object.read hfits hblank
  · exact array.read hfits hblank

theorem Members.length_lt (h : format.Members isFirst text before after rest)
    (hfits : format.Fits complete shape) : rest.length < text.length := by
  induction h with
  | done blanks =>
    have hblanks := blanks.length_le
    simp only [List.length_cons] at hblanks
    omega
  | known comma named blanks hmem _ gives _ ih =>
    obtain ⟨field, _, hfit⟩ := exists_find? hfits.fields hfits.nodup hmem
    obtain ⟨_, _, _, _, _, hmore⟩ := hfit.starts gives
    exact Nat.lt_trans ih (Nat.lt_trans hmore (comma.length_value_lt named blanks))
  | unknown _ comma named blanks _ wellFormed _ ih =>
    have hmore := wellFormed.length_lt
    exact Nat.lt_trans ih (Nat.lt_trans hmore (comma.length_value_lt named blanks))

theorem Elements.length_lt {mayBeShort : Bool} {entries : List (Entry ρ)} {fields : List (Field π)}
    (h : Elements mayBeShort entries isFirst text before after rest)
    (hfits : List.Forall₂ (Entry.Fits complete) entries fields) : rest.length < text.length := by
  induction h generalizing fields with
  | done _ blanks =>
    have hblanks := blanks.length_le
    simp only [List.length_cons] at hblanks
    omega
  | more comma _ gives _ ih =>
    cases hfits with
    | cons hfit hfits =>
      obtain ⟨_, _, _, _, _, hmore⟩ := hfit.starts gives
      have hcomma := comma.length_le
      have hlater := ih hfits
      omega

/-- A value begins with the character that opens it and ends behind it. -/
theorem Value.exists_cons (h : format.Value text after rest) (hfits : format.Fits complete shape) :
    ∃ c more, text = c :: more ∧ isBlank c = false ∧ c ≠ ']' ∧ rest.length < text.length := by
  obtain ⟨⟨members⟩⟩ | ⟨⟨elements⟩⟩ := h
  · exact ⟨'{', _, rfl, rfl, by decide, Nat.lt_succ_of_lt (members.length_lt hfits)⟩
  · exact ⟨'[', _, rfl, rfl, by decide, Nat.lt_succ_of_lt (elements.length_lt hfits.fields)⟩

/-- A whole text is read as it is written. -/
theorem Fits.readAll (hfits : format.Fits complete shape) {whole : String}
    (h : IsWhole format.Value whole after) :
    shape.readAll whole = (complete after).bind shape.complete := by
  obtain ⟨inner, rest, blanks, value, hrest⟩ := h
  obtain ⟨c, more, rfl, hblank, _⟩ := value.exists_cons hfits
  have hread := value.read hfits (blanks.skipBlanks hblank)
  have hend : skipBlanks rest = [] := hrest.skipBlanks_eq
  rw [Shape.readAll, hread]
  cases (complete after).bind shape.complete with
  | error error => rfl
  | ok value => simp only [Except.map, bind, Except.bind, hend]

end

end Format

end YieldLock.Json
