import YieldLock.Json.Stats
import YieldLock.Proofs.Overlay

/-!
# What is written is read back

The writer makes one member of each field, without blanks. Its text has the format
that the reader accepts, so reading it gives the fields that were written. Main
statements: `Adds.object`, `readConfig_writeConfig`, `readStats_writeStats`, and
`reading_inverts_writing`.
-/

namespace YieldLock.Json

/-- A text spells a value wherever the text behind it does not go on with a number. -/
def Writes {β : Type} (Spelled : List Char → β → List Char → Prop) (text : List Char) (value : β) :
    Prop :=
  ∀ rest, EndsNumber rest → Spelled (text ++ rest) value rest

/-- Members with the fields that they add to a value, one after the other. -/
inductive Adds {ρ : Type} (format : Format ρ) : List (String × List Char) → ρ → ρ → Prop where
  | nil (value : ρ) : Adds format [] value value
  | cons {text : List Char} {members : List (String × List Char)} {entry : Entry ρ}
      {before middle after : ρ} (hmem : entry ∈ format.entries)
      (hfree : entry.isGiven before = false)
      (gives : ∀ rest, EndsNumber rest → entry.Gives (text ++ rest) before middle rest)
      (adds : Adds format members middle after) :
      Adds format ((entry.name, text) :: members) before after

section

variable {ρ : Type} {format : Format ρ} {listed : List (String × List Char)} {before after : ρ}

/-! ## Objects -/

/-- The members that are written have the format. -/
theorem Adds.members (h : Adds format listed before after) (hne : listed ≠ []) {isFirst : Bool}
    {text rest : List Char} (comma : Comma isFirst text (writeMembers listed ++ '}' :: rest)) :
    format.Members isFirst text before after rest := by
  induction h generalizing isFirst text with
  | nil => exact absurd rfl hne
  | @cons value listed entry before middle after hmem hfree gives adds ih =>
    cases listed with
    | nil =>
      cases adds
      have hends : EndsNumber ('}' :: rest) := endsNumber_cons rfl (by decide) rest
      rw [writeMembers, List.append_assoc, List.cons_append] at comma
      exact .known comma (named_writeString ..) (.nil _) hmem hfree (gives _ hends) (.done (.nil _))
    | cons member listed =>
      have hends : EndsNumber (',' :: (writeMembers (member :: listed) ++ '}' :: rest)) :=
        endsNumber_cons rfl (by decide) _
      have hmore := ih (List.cons_ne_nil _ _) (.next (.nil _) (.nil _))
      have htext : writeMembers ((entry.name, value) :: member :: listed) ++ '}' :: rest =
          writeString entry.name ++
            ':' :: (value ++ ',' :: (writeMembers (member :: listed) ++ '}' :: rest)) := by
        simp only [writeMembers, List.append_assoc, List.cons_append]
      rw [htext] at comma
      exact .known comma (named_writeString ..) (.nil _) hmem hfree (gives _ hends) hmore

/-- The object that is written has the format. -/
theorem Adds.object (h : Adds format listed format.start after) (rest : List Char) :
    format.Object (writeObject listed ++ rest) after rest := by
  have htext : writeObject listed ++ rest = '{' :: (writeMembers listed ++ '}' :: rest) := by
    simp only [writeObject, List.append_assoc, List.cons_append, List.nil_append]
  rw [htext]
  refine .mk ?_
  cases listed with
  | nil =>
    cases h
    exact .done (.nil _)
  | cons => exact h.members (List.cons_ne_nil _ _) (.first (.nil _))

theorem Adds.isWhole (h : Adds format listed format.start after) :
    IsWhole format.Object (String.ofList (writeObject listed)) after := by
  refine ⟨writeObject listed, [], ?_, ?_, .nil _⟩
  · rw [String.toList_ofList]
    exact .nil _
  · have hobject := h.object []
    rwa [List.append_nil] at hobject

/-- A value that is written is a member that adds it. -/
theorem Adds.ofSpelling {β : Type} {name : String} {get : ρ → Option β} {fill : ρ → β → ρ}
    {Spelled : List Char → β → List Char → Prop} {text : List Char} {value : β}
    (writes : Writes Spelled text value) (hmem : .ofSpelling name get fill Spelled ∈ format.entries)
    (hfree : get before = none) (adds : Adds format listed (fill before value) after) :
    Adds format ((name, text) :: listed) before after :=
  .cons hmem (congrArg Option.isSome hfree) (fun rest hends ↦ ⟨value, writes rest hends, rfl⟩) adds

/-! ## Scalars -/

theorem writes_word64 (value : UInt64) : Writes Word64 (writeNat value.toNat) value :=
  fun _ hends ↦ ⟨rfl, hends⟩

theorem writes_word32 (value : UInt32) : Writes Word32 (writeNat value.toNat) value :=
  fun _ hends ↦ ⟨rfl, hends⟩

theorem writes_string (value : String) : Writes Quoted (writeString value) value := by
  intro rest _
  rw [writeString_append]
  exact .mk (spells_escaped ..)

theorem writes_boolean (value : Bool) : Writes Truth (writeBoolean value) value := by
  intro rest _
  cases value
  · exact .isFalse rest
  · exact .isTrue rest

/-! ## Durations and configurations -/

/-- The nanoseconds of a duration in the word in which they are written. -/
def nanosWord (span : Duration) : UInt32 := UInt32.ofNat span.nanos.val

theorem toNat_nanosWord (span : Duration) : (nanosWord span).toNat = span.nanos.val :=
  UInt32.toNat_ofNat_of_lt' (Nat.lt_trans span.nanos.isLt (by decide))

/-- A duration is the one of its own seconds and nanoseconds. -/
theorem ofParts?_nanosWord (span : Duration) :
    Duration.ofParts? span.secs (nanosWord span) = some span := by
  have hdiv : span.nanos.val / 1000000000 = 0 := Nat.div_eq_of_lt span.nanos.isLt
  have hmod : span.nanos.val % 1000000000 = span.nanos.val := Nat.mod_eq_of_lt span.nanos.isLt
  simp only [Duration.ofParts?, toNat_nanosWord, hdiv, hmod, Nat.add_zero, UInt64.ofNat_toNat,
    if_pos span.secs.toNat_lt]

theorem writes_duration (span : Duration) :
    Writes WrittenSleep (writeDuration span) (span.secs, nanosWord span) := by
  intro rest _
  have hnanos := writes_word32 (nanosWord span)
  rw [toNat_nanosWord] at hnanos
  have hadds : Adds durationFormat
      [("secs", writeNat span.secs.toNat), ("nanos", writeNat span.nanos.val)] {}
      { secs := some span.secs, nanos := some (nanosWord span) } :=
    .ofSpelling (writes_word64 span.secs) (.head _) rfl <|
      .ofSpelling hnanos (.tail _ (.head _)) rfl (.nil _)
  exact .inl (hadds.object rest)

/-- What is written of a configuration. -/
def writtenOf (config : Config) : WrittenConfig where
  sleep := some (config.yieldSleep.secs, nanosWord config.yieldSleep)
  workerName := some config.workerName
  warnOnWorkerAcquire := some config.warnOnWorkerAcquire

/-- The members that are written of a configuration. -/
theorem adds_config (config : Config) : Adds configFormat
    [("yield_sleep", writeDuration config.yieldSleep),
      ("worker_thread_name", writeString config.workerName),
      ("warn_on_worker_acquire", writeBoolean config.warnOnWorkerAcquire)] {} (writtenOf config) :=
  .ofSpelling (writes_duration _) (.head _) rfl <|
    .ofSpelling (writes_string _) (.tail _ (.head _)) rfl <|
    .ofSpelling (writes_boolean _) (.tail _ (.tail _ (.head _))) rfl (.nil _)

theorem isWhole_writeConfig (config : Config) :
    IsWhole configFormat.Object (writeConfig config) (writtenOf config) :=
  Adds.isWhole (adds_config config)

/-- All fields are written, so nothing of the standard configuration is left. -/
theorem parts_writtenOf (config : Config) :
    (writtenOf config).parts = .ok
      { yieldSleep := some config.yieldSleep
        workerName := some config.workerName
        warnOnWorkerAcquire := some config.warnOnWorkerAcquire } := by
  simp only [WrittenConfig.parts, WrittenConfig.span, writtenOf, ofParts?_nanosWord, Except.map]

theorem readConfig_writeConfig (build : Build) (config : Config) :
    readConfig build (writeConfig config) = .ok config := by
  rw [readConfig_of_written build (isWhole_writeConfig config).value, parts_writtenOf]
  rfl

/-! ## Settings -/

theorem writes_lock (build : Build) (config : Config) :
    Writes (WrittenLock build) (writeConfig config).toList config := by
  intro rest _
  rw [writeConfig, String.toList_ofList]
  have hobject := (adds_config config).object rest
  exact ⟨writtenOf config, _, .inl hobject, parts_writtenOf config, rfl⟩

/-- There are settings with a lock of any configuration. -/
theorem exists_readSettings_of_lock (build : Build) (config : Config) :
    ∃ text, readSettings build text =
      .ok { Demo.Settings.standard build with lock := config } := by
  have hadds : Adds (settingsFormat build) [("lock", (writeConfig config).toList)] {}
      { lock := some config } :=
    .ofSpelling (writes_lock build config) (.head _) rfl (.nil _)
  exact ⟨_, readSettings_of_written build hadds.isWhole.value⟩

/-! ## Counters -/

def statsFormat : Format StatsParts where
  entries := Stats.names.map fun name ↦
    .ofSpelling name (·.lookup name) (fun parts value ↦ parts ++ [(name, value)]) Word64
  start := []
  skipsUnknown := true
  mayBeShort := false

theorem statsFormat_fits : statsFormat.Fits .ok statsShape where
  fields := by
    refine List.forall₂_map_left_iff.mpr (List.forall₂_map_right_iff.mpr ?_)
    exact List.forall₂_same.mpr fun name _ ↦ fits_same (reads_word64 "u64") ..
  nodup := by
    rw [statsFormat, List.map_map]
    decide
  start := rfl
  skips _ := rfl
  short := nofun

/-- Counters under different names are added in their order. -/
theorem adds_counters {names : List String} (values : List UInt64) {parts : StatsParts}
    (hnames : ∀ name ∈ names, name ∈ Stats.names) (hnodup : names.Nodup)
    (hfree : ∀ name ∈ names, parts.lookup name = none) :
    Adds statsFormat (names.zip (values.map fun value ↦ writeNat value.toNat)) parts
      (parts ++ names.zip values) := by
  induction names generalizing values parts with
  | nil =>
    rw [List.zip_nil_left, List.zip_nil_left, List.append_nil]
    exact .nil parts
  | cons name names ih =>
    cases values with
    | nil =>
      rw [List.map_nil, List.zip_nil_right, List.zip_nil_right, List.append_nil]
      exact .nil parts
    | cons value values =>
      rw [List.forall_mem_cons] at hnames hfree
      rw [List.nodup_cons] at hnodup
      have hlater : ∀ other ∈ names, (parts ++ [(name, value)]).lookup other = none := by
        intro other hother
        have hne : other ≠ name := fun heq ↦ hnodup.1 (heq ▸ hother)
        simp only [List.lookup_append, hfree.2 other hother, List.lookup_cons, List.lookup_nil,
          beq_eq_false_iff_ne.mpr hne, Option.none_or]
      have hadds := ih values hnames.2 hnodup.2 hlater
      rw [List.append_assoc] at hadds
      exact .ofSpelling (writes_word64 value) (List.mem_map_of_mem hnames.1) hfree.1 hadds

theorem isWhole_writeStats (stats : Stats) :
    IsWhole statsFormat.Object (writeStats stats) (Stats.names.zip stats.values) :=
  Adds.isWhole (adds_counters _ (fun _ h ↦ h) (by decide) fun _ _ ↦ rfl)

theorem readStats_writeStats (stats : Stats) : readStats (writeStats stats) = .ok stats := by
  rw [readStats, statsFormat_fits.readAll (isWhole_writeStats stats).value]
  rfl

end

/-- Every configuration and every snapshot of the counters is written as an object of its fields,
and read back from it as it was. A configuration that was read from any text is written as a text
that is read as the same configuration, and so written as the same text. -/
theorem reading_inverts_writing (build : Build) :
    (∀ config, IsWhole configFormat.Object (writeConfig config) (writtenOf config) ∧
      readConfig build (writeConfig config) = .ok config) ∧
    (∀ stats, IsWhole statsFormat.Object (writeStats stats) (Stats.names.zip stats.values) ∧
      readStats (writeStats stats) = .ok stats) ∧
    (∀ text config, readConfig build text = .ok config →
      ∃ again, readConfig build (writeConfig config) = .ok again ∧ again = config ∧
        writeConfig again = writeConfig config) :=
  ⟨fun config ↦ ⟨isWhole_writeConfig config, readConfig_writeConfig build config⟩,
    fun stats ↦ ⟨isWhole_writeStats stats, readStats_writeStats stats⟩,
    fun _ config _ ↦ ⟨config, readConfig_writeConfig build config, rfl, rfl⟩⟩

/-- A configuration whose sleep was given as nanoseconds only is written with the second that they
make, and read back. -/
theorem reading_inverts_writing_second :
    ∃ config, readConfig .checked "[[0,1000000007]]" = .ok config ∧
      config.yieldSleep = ⟨1, 7⟩ ∧
      ∃ again, readConfig .checked (writeConfig config) = .ok again ∧ again = config ∧
        writeConfig again = writeConfig config := by
  have hread : readConfig .checked "[[0,1000000007]]" =
      .ok { Config.standard .checked with yieldSleep := ⟨1, 7⟩ } := by
    rfl
  exact ⟨_, hread, rfl, (reading_inverts_writing .checked).2.2 _ _ hread⟩

end YieldLock.Json
