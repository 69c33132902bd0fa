import YieldLock.Json.Settings
import YieldLock.Proofs.Formats

/-!
# A configuration is laid over the standard one

The formats of durations, configurations and settings. Whatever fields a text gives,
in whatever order and with whatever between them, what is read is the standard value
with these fields in it. Main statements: `configFormat_fits` and
`settingsFormat_fits`, and `reading_is_overlay`.
-/

namespace YieldLock.Json

open Demo

/-- A string in quotes. -/
inductive Quoted : List Char → String → List Char → Prop where
  | mk {text rest : List Char} {value : String} (spells : Spells text value.toList rest) :
      Quoted ('"' :: text) value rest

inductive Truth : List Char → Bool → List Char → Prop where
  | isTrue (rest : List Char) : Truth ('t' :: 'r' :: 'u' :: 'e' :: rest) true rest
  | isFalse (rest : List Char) : Truth ('f' :: 'a' :: 'l' :: 's' :: 'e' :: rest) false rest

/-- A reader reads values as they are spelled. -/
structure Reads {β : Type} (Spelled : List Char → β → List Char → Prop) (reader : Reader β) :
    Prop where
  starts : ∀ {text rest : List Char} {value : β}, Spelled text value rest →
    ∃ c more, text = c :: more ∧ isBlank c = false ∧ c ≠ ']' ∧ rest.length < text.length
  reads : ∀ {text rest blank : List Char} {value : β}, Spelled text value rest →
    skipBlanks blank = text → reader blank = .ok (value, rest)

/-- The entry of a field whose value is spelled in such a way. -/
def Entry.ofSpelling {ρ β : Type} (name : String) (get : ρ → Option β) (fill : ρ → β → ρ)
    (Spelled : List Char → β → List Char → Prop) : Entry ρ where
  name
  isGiven value := (get value).isSome
  Gives text before after rest := ∃ value, Spelled text value rest ∧ after = fill before value

def Word64 (text : List Char) (value : UInt64) (rest : List Char) : Prop :=
  Word text value.toNat rest

def Word32 (text : List Char) (value : UInt32) (rest : List Char) : Prop :=
  Word text value.toNat rest

section

variable {ρ π β : Type} {text rest blank : List Char}

/-! ## Scalars -/

theorem Word.starts {value : Nat} (h : Word text value rest) :
    ∃ c more, text = c :: more ∧ isBlank c = false ∧ c ≠ ']' ∧ rest.length < text.length := by
  obtain ⟨c, more, htext, hdigit⟩ := h.exists_cons
  refine ⟨c, more, htext, isBlank_of_isDigit hdigit, ?_, ?_⟩
  · rintro rfl
    cases hdigit
  · have hpos : 0 < (Nat.toDigits 10 value).length := List.length_pos_iff.mpr Nat.toDigits_ne_nil
    rw [h.digits, List.length_append]
    omega

theorem reads_word64 (expected : String) : Reads Word64 (readWord64 expected) where
  starts := Word.starts
  reads {text rest blank value} h hblank := by
    have hbound : value.toNat ≤ UInt64.size - 1 := Nat.le_pred_of_lt value.toNat_lt
    rw [readWord64, Word.readUnsigned h hblank hbound value.toNat_lt]
    simp only [Except.map, UInt64.ofNat_toNat]

theorem reads_word32 : Reads Word32 readWord32 where
  starts := Word.starts
  reads {text rest blank value} h hblank := by
    have hbound : value.toNat ≤ UInt32.size - 1 := Nat.le_pred_of_lt value.toNat_lt
    have hless : value.toNat < UInt64.size := Nat.lt_trans value.toNat_lt (by decide)
    rw [readWord32, Word.readUnsigned h hblank hbound hless]
    simp only [Except.map, UInt32.ofNat_toNat]

theorem reads_string : Reads Quoted readString where
  starts := by
    rintro _ rest value ⟨spells⟩
    exact ⟨'"', _, rfl, rfl, by decide, Nat.lt_succ_of_lt spells.length_lt⟩
  reads := by
    rintro _ rest blank value ⟨spells⟩ hblank
    rw [readString, hblank]
    simp only [spells.readText, Except.map, String.ofList_toList]

theorem reads_boolean : Reads Truth readBoolean where
  starts := by
    rintro _ rest value (_ | _)
    · exact ⟨'t', _, rfl, rfl, by decide, by simp only [List.length_cons]; omega⟩
    · exact ⟨'f', _, rfl, rfl, by decide, by simp only [List.length_cons]; omega⟩
  reads := by
    rintro _ rest blank value (_ | _) hblank
    all_goals
      rw [readBoolean, hblank]
      rfl

/-- A field whose value is spelled as its reader reads it. What it adds to what is written is added
to the parts that are read. -/
theorem fits_ofSpelling {complete : ρ → Except ReadError π}
    {Spelled : List Char → β → List Char → Prop} {reader : Reader β} (h : Reads Spelled reader)
    (name : String) (get : π → Option β) (fill : π → β → π) (getWritten : ρ → Option β)
    (fillWritten : ρ → β → ρ)
    (hget : ∀ {written parts}, complete written = .ok parts → get parts = getWritten written)
    (hfill : ∀ written value, complete (fillWritten written value) =
      (complete written).map (fill · value)) :
    Entry.Fits complete (.ofSpelling name getWritten fillWritten Spelled)
      { name, isGiven := fun parts ↦ (get parts).isSome
        read := fun parts text ↦ (reader text).map fun (value, rest) ↦
          (fill parts value, rest) } where
  name := rfl
  isGiven hparts := congrArg Option.isSome (hget hparts)
  starts := by
    rintro text rest before after ⟨value, hspelled, _⟩
    exact h.starts hspelled
  reads := by
    rintro text rest blank before _ parts ⟨value, hspelled, rfl⟩ hparts hblank
    simp only [h.reads hspelled hblank, hfill, hparts, Except.map]
  keeps := by
    rintro text rest before _ error ⟨value, _, rfl⟩ _ herror
    rw [hfill, herror]
    rfl

/-- The same where the parts are what is written. -/
theorem fits_same {Spelled : List Char → β → List Char → Prop} {reader : Reader β}
    (h : Reads Spelled reader) (name : String) (get : ρ → Option β) (fill : ρ → β → ρ) :
    Entry.Fits .ok (.ofSpelling name get fill Spelled)
      { name, isGiven := fun parts ↦ (get parts).isSome
        read := fun parts text ↦ (reader text).map fun (value, rest) ↦ (fill parts value, rest) } :=
  fits_ofSpelling h name get fill get fill (fun hparts ↦ congrArg get (Except.ok.inj hparts).symm)
    fun _ _ ↦ rfl

/-! ## Durations -/

def durationFormat : Format DurationParts where
  entries :=
    [.ofSpelling "secs" (·.secs) (fun parts secs ↦ { parts with secs := some secs }) Word64,
      .ofSpelling "nanos" (·.nanos) (fun parts nanos ↦ { parts with nanos := some nanos }) Word32]
  start := {}
  skipsUnknown := false
  mayBeShort := false

theorem durationFormat_fits : durationFormat.Fits .ok durationShape where
  fields :=
    .cons (fits_same (reads_word64 "u64") ..) (.cons (fits_same reads_word32 ..) .nil)
  nodup := by decide
  start := rfl
  skips := nofun
  short := nofun

/-! ## Configurations -/

/-- What a text gives of a configuration. The sleep is a pair as it is written, which need not have
a duration. -/
structure WrittenConfig where
  sleep : Option (UInt64 × UInt32) := none
  workerName : Option String := none
  warnOnWorkerAcquire : Option Bool := none
  deriving DecidableEq, Repr

namespace WrittenConfig

/-- The sleep that is read, unless it is too long for a duration. -/
def span (written : WrittenConfig) : Except ReadError (Option Duration) :=
  match written.sleep with
  | none => .ok none
  | some (secs, nanos) =>
    match Duration.ofParts? secs nanos with
    | some span => .ok (some span)
    | none => .error .durationOverflow

/-- The parts that are read. -/
def parts (written : WrittenConfig) : Except ReadError ConfigParts :=
  written.span.map fun yieldSleep ↦
    { yieldSleep
      workerName := written.workerName
      warnOnWorkerAcquire := written.warnOnWorkerAcquire }

end WrittenConfig

/-- A pair of seconds and nanoseconds that is written as a duration. -/
def WrittenSleep (text : List Char) (sleep : UInt64 × UInt32) (rest : List Char) : Prop :=
  durationFormat.Value text { secs := some sleep.1, nanos := some sleep.2 } rest

def configFormat : Format WrittenConfig where
  entries :=
    [.ofSpelling "yield_sleep" (·.sleep)
        (fun written sleep ↦ { written with sleep := some sleep }) WrittenSleep,
      .ofSpelling "worker_thread_name" (·.workerName)
        (fun written name ↦ { written with workerName := some name }) Quoted,
      .ofSpelling "warn_on_worker_acquire" (·.warnOnWorkerAcquire)
        (fun written warn ↦ { written with warnOnWorkerAcquire := some warn }) Truth]
  start := {}
  skipsUnknown := true
  mayBeShort := true

theorem WrittenSleep.read {sleep : UInt64 × UInt32} (h : WrittenSleep text sleep rest)
    (hblank : skipBlanks blank = text) :
    durationShape.read blank =
      match Duration.ofParts? sleep.1 sleep.2 with
      | some span => .ok (span, rest)
      | none => .error .durationOverflow := by
  rw [Format.Value.read h durationFormat_fits hblank]
  change (DurationParts.complete { secs := some sleep.1, nanos := some sleep.2 }).map _ = _
  simp only [DurationParts.complete]
  cases Duration.ofParts? sleep.1 sleep.2 <;> rfl

/-- A sleep may be written as an array. -/
theorem writtenSleep_array (secs : UInt64) (nanos : UInt32) (rest : List Char) :
    WrittenSleep
      ('[' :: (Nat.toDigits 10 secs.toNat ++ ',' :: (Nat.toDigits 10 nanos.toNat ++ ']' :: rest)))
      (secs, nanos) rest := by
  have hends (c : Char) (hc : c = ',' ∨ c = ']') (more : List Char) : EndsNumber (c :: more) := by
    obtain rfl | rfl := hc <;> exact endsNumber_cons rfl (by decide) more
  exact .inr <| .mk <| .more (.first (.nil _)) rfl ⟨secs, ⟨rfl, hends ',' (.inl rfl) _⟩, rfl⟩ <|
    .more (.next (.nil _) (.nil _)) rfl ⟨nanos, ⟨rfl, hends ']' (.inr rfl) rest⟩, rfl⟩ <|
    .done (.inl rfl) (.nil _)

theorem WrittenConfig.parts_eq_ok {written : WrittenConfig} {parts : ConfigParts}
    (h : written.parts = .ok parts) :
    parts.yieldSleep.isSome = written.sleep.isSome ∧ parts.workerName = written.workerName ∧
      parts.warnOnWorkerAcquire = written.warnOnWorkerAcquire := by
  unfold WrittenConfig.parts WrittenConfig.span at h
  cases hsleep : written.sleep with
  | none =>
    rw [hsleep] at h
    cases h
    exact ⟨rfl, rfl, rfl⟩
  | some sleep =>
    rw [hsleep] at h
    simp only at h
    split at h
    · cases h
      exact ⟨rfl, rfl, rfl⟩
    · cases h

/-- A pair that has a duration is read as the sleep, and any other is refused. -/
theorem fits_sleep : Entry.Fits WrittenConfig.parts
    (.ofSpelling "yield_sleep" (·.sleep)
      (fun written sleep ↦ { written with sleep := some sleep }) WrittenSleep)
    { name := "yield_sleep"
      isGiven := fun parts ↦ parts.yieldSleep.isSome
      read := fun parts text ↦ (durationShape.read text).map fun (span, rest) ↦
        ({ parts with yieldSleep := some span }, rest) } where
  name := rfl
  isGiven hparts := (WrittenConfig.parts_eq_ok hparts).1
  starts := by
    rintro text rest before after ⟨sleep, hspelled, _⟩
    exact Format.Value.exists_cons hspelled durationFormat_fits
  reads := by
    rintro text rest blank before _ parts ⟨⟨secs, nanos⟩, hspelled, rfl⟩ hparts hblank
    obtain ⟨_, hname, hwarn⟩ := WrittenConfig.parts_eq_ok hparts
    simp only [hspelled.read hblank, WrittenConfig.parts, WrittenConfig.span, ← hname, ← hwarn]
    cases Duration.ofParts? secs nanos <;> rfl
  keeps := by
    rintro text rest ⟨sleep, name, warn⟩ _ error ⟨_, _, rfl⟩ hfree herror
    cases sleep with
    | none => cases herror
    | some => cases hfree

theorem configFormat_fits (build : Build) :
    configFormat.Fits WrittenConfig.parts (configShape build) where
  fields := by
    refine .cons fits_sleep (.cons ?_ (.cons ?_ .nil))
    · refine fits_ofSpelling reads_string "worker_thread_name" ConfigParts.workerName
        (fun parts name ↦ { parts with workerName := some name }) _ _
        (fun hparts ↦ (WrittenConfig.parts_eq_ok hparts).2.1) fun written name ↦ ?_
      unfold WrittenConfig.parts
      change written.span.map _ = _
      cases written.span <;> rfl
    · refine fits_ofSpelling reads_boolean "warn_on_worker_acquire" ConfigParts.warnOnWorkerAcquire
        (fun parts warn ↦ { parts with warnOnWorkerAcquire := some warn }) _ _
        (fun hparts ↦ (WrittenConfig.parts_eq_ok hparts).2.2) fun written warn ↦ ?_
      unfold WrittenConfig.parts
      change written.span.map _ = _
      cases written.span <;> rfl
  nodup := by decide
  start := rfl
  skips _ := rfl
  short _ := rfl

theorem IsWhole.value {format : Format ρ} {whole : String} {value : ρ}
    (h : IsWhole format.Object whole value) : IsWhole format.Value whole value := by
  obtain ⟨inner, rest, blanks, object, hrest⟩ := h
  exact ⟨inner, rest, blanks, .inl object, hrest⟩

/-- A configuration is read as it is written, laid over the standard one. -/
theorem readConfig_of_written (build : Build) {text : String} {written : WrittenConfig}
    (h : IsWhole configFormat.Value text written) :
    readConfig build text = written.parts.map fun parts ↦ parts.laidOn (.standard build) := by
  rw [readConfig, (configFormat_fits build).readAll h]
  cases written.parts <;> rfl

/-! ## Settings -/

/-- A configuration that is given, laid over the standard one. -/
def WrittenLock (build : Build) (text : List Char) (config : Config) (rest : List Char) : Prop :=
  ∃ written parts, configFormat.Value text written rest ∧ written.parts = .ok parts ∧
    config = parts.laidOn (.standard build)

theorem reads_lock (build : Build) : Reads (WrittenLock build) (configShape build).read where
  starts := by
    rintro text rest config ⟨written, parts, value, _⟩
    exact value.exists_cons (configFormat_fits build)
  reads := by
    rintro text rest blank _ ⟨written, parts, value, hparts, rfl⟩ hblank
    rw [value.read (configFormat_fits build) hblank, hparts]
    rfl

def settingsFormat (build : Build) : Format SettingsParts where
  entries :=
    [.ofSpelling "lock" (·.lock) (fun parts lock ↦ { parts with lock := some lock })
        (WrittenLock build),
      .ofSpelling "frame_time_ms" (·.frameTime)
        (fun parts value ↦ { parts with frameTime := some value }) Word64,
      .ofSpelling "host_call_every" (·.hostCallEvery)
        (fun parts value ↦ { parts with hostCallEvery := some value }) Word64,
      .ofSpelling "host_call_time_ms" (·.hostCallTime)
        (fun parts value ↦ { parts with hostCallTime := some value }) Word64,
      .ofSpelling "ui_events" (·.uiEvents)
        (fun parts value ↦ { parts with uiEvents := some value }) Word64,
      .ofSpelling "ui_event_interval_ms" (·.uiEventInterval)
        (fun parts value ↦ { parts with uiEventInterval := some value }) Word64]
  start := {}
  skipsUnknown := true
  mayBeShort := true

theorem settingsFormat_fits (build : Build) :
    (settingsFormat build).Fits .ok (settingsShape build) where
  fields :=
    .cons (fits_same (reads_lock build) ..) <|
      .cons (fits_same (reads_word64 "u64") ..) <|
      .cons (fits_same (reads_word64 "u64") ..) <|
      .cons (fits_same (reads_word64 "u64") ..) <|
      .cons (fits_same (reads_word64 "usize") ..) <|
      .cons (fits_same (reads_word64 "u64") ..) .nil
  nodup := by
    change ["lock", "frame_time_ms", "host_call_every", "host_call_time_ms", "ui_events",
      "ui_event_interval_ms"].Nodup
    decide
  start := rfl
  skips _ := rfl
  short _ := rfl

/-- Settings are read as they are written, laid over the standard ones. -/
theorem readSettings_of_written (build : Build) {text : String} {parts : SettingsParts}
    (h : IsWhole (settingsFormat build).Value text parts) :
    readSettings build text = .ok (parts.laidOn (.standard build)) := by
  rw [readSettings, (settingsFormat_fits build).readAll h]
  rfl

end

end YieldLock.Json
