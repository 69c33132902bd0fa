import YieldLock.Proofs.Nesting
import YieldLock.Proofs.Overlay

/-!
# The sleep that is configured

A pair of seconds and nanoseconds is read as a duration unless it is too long, and a
lock is built around it unless it is zero. The worker sleeps in one place only, and
there for the sleep of the lock's configuration, which never changes. Main statements:
`exists_readConfig_of_span`, `Run.yieldSleep_of_mem`, `Lock.IsNew.yieldSleep_ne_zero`, and
`configured_sleep_is_slept`.
-/

namespace YieldLock

open Json

variable {σ : Type}

/-- The span that an event shows a worker to hand to the sleeper. -/
def Event.span? : Event σ → Option Duration
  | .entry (.slept span) => some span
  | _ => none

/-- The spans that were handed to the sleeper in the turns of a run, in order. -/
def spansIn (turns : List (Turn σ)) : List Duration := (shownIn turns).filterMap Event.span?

theorem mem_spansIn {turns : List (Turn σ)} {span : Duration} :
    span ∈ spansIn turns ↔ ∃ turn ∈ turns, .entry (.slept span) ∈ turn.events := by
  have hspan (event : Event σ) : event.span? = some span ↔ event = .entry (.slept span) := by
    cases event with
    | entry line => cases line <;> simp [Event.span?]
    | tornDown | answered => simp [Event.span?]
  simp only [spansIn, shownIn, List.mem_filterMap, List.mem_flatMap, hspan, exists_eq_right]

/-! ## Runs -/

section

variable {build : Build} {now : Nat} {me : Thread} {lock : Lock σ} {self : ThreadState σ}
  {call? : Option (Call σ)} {effect : Effect σ} {start world next : World σ} {move : Move σ}
  {events : List (Event σ)} {turns : List (Turn σ)} {span : Duration}

/-- The one step that hands a span to the sleeper takes it from the configuration. -/
theorem ThreadState.Rule.yieldSleep_of_slept (rule : Rule build now me lock self call? effect)
    (hsound : self.IsSound) (h : .entry (.slept span) ∈ effect.events) :
    span = lock.config.yieldSleep := by
  cases rule.origin hsound _ h with
  | slept _ call hbusy =>
    cases rule with
    | pollSleep =>
      cases List.mem_singleton.mp h
      rfl
    | pollNone | pollNested | pollFree => cases List.mem_singleton.mp h
    | park => cases h
    | _ hstands => cases hbusy.symm.trans hstands

theorem World.Change.yieldSleep_of_slept (change : World.Change build world move next events)
    (hworld : Reachable build world) (h : .entry (.slept span) ∈ events) :
    span = world.lock.config.yieldSleep := by
  cases change with
  | enter | pass => cases h
  | spawn | spawnRefused => cases List.mem_singleton.mp h
  | own name call? effect _ rule => exact rule.yieldSleep_of_slept (hworld.fits name).sound h

/-- Every span that a run hands to the sleeper is the sleep of the lock that the run began with. -/
theorem Run.yieldSleep_of_mem (run : Run build start turns world) (hstart : Reachable build start)
    (h : span ∈ spansIn turns) : span = start.lock.config.yieldSleep := by
  obtain ⟨turn, hmem, hevent⟩ := mem_spansIn.mp h
  obtain ⟨earlier, _, hearlier, hmove⟩ := run.exists_of_mem hmem
  have hturn : Reachable build turn.before := hstart.run hearlier
  rw [(World.change_of_move? hmove).yieldSleep_of_slept hturn hevent, hearlier.advances.config]

end

/-! ## Locks -/

namespace Lock

variable {lock : Lock σ}

theorem withConfig_of_eq_zero (value : σ) {config : Config} (h : config.yieldSleep.toNanos = 0) :
    Lock.withConfig value config = .error .zeroYieldSleep := by
  have hzero : config.yieldSleep.isZero = true := (Duration.isZero_iff_toNanos _).mpr h
  rw [withConfig, Config.validate, if_pos hzero]
  rfl

theorem withConfig_of_ne_zero (value : σ) {config : Config} (h : config.yieldSleep.toNanos ≠ 0) :
    Lock.withConfig value config = .ok { value, config } := by
  rw [withConfig, (Config.validate_eq_ok_iff config).mpr h]
  rfl

theorem withConfig_eq_error_iff (value : σ) (config : Config) :
    Lock.withConfig value config = .error .zeroYieldSleep ↔ config.yieldSleep.toNanos = 0 := by
  refine ⟨fun herror ↦ ?_, withConfig_of_eq_zero value⟩
  by_contra hne
  cases (withConfig_of_ne_zero value hne).symm.trans herror

/-- A lock that was built with a configuration is new with or without a teardown. -/
theorem isNew_of_withConfig {value : σ} {config : Config}
    (h : Lock.withConfig value config = .ok lock) (teardown : Option Teardown) :
    IsNew { lock with teardown } := by
  cases teardown with
  | none =>
    have hlock : { lock with teardown := none } = lock := by rw [eq_of_withConfig h]
    rw [hlock]
    exact .withConfig h
  | some teardown => exact .withTeardown teardown (.withConfig h)

/-- No lock comes from a constructor with a sleep of no length. -/
theorem IsNew.yieldSleep_ne_zero (h : lock.IsNew) : lock.config.yieldSleep.toNanos ≠ 0 := by
  induction h with
  | standard build => exact (Config.validate_eq_ok_iff _).mp (Config.validate_standard build)
  | @withConfig value config lock h =>
    intro hzero
    rw [eq_of_withConfig h] at hzero
    cases (withConfig_of_eq_zero value hzero).symm.trans h
  | withTeardown _ _ ih => exact ih

end Lock

/-! ## Configurations -/

section

variable (build : Build) {text : String} {written : WrittenConfig} {secs : UInt64} {nanos : UInt32}

theorem readConfig_of_overflow (h : IsWhole configFormat.Value text written)
    (hsleep : written.sleep = some (secs, nanos)) (hspan : Duration.ofParts? secs nanos = none) :
    readConfig build text = .error .durationOverflow := by
  simp only [readConfig_of_written build h, WrittenConfig.parts, WrittenConfig.span, hsleep, hspan,
    Except.map]

/-- A configuration that gives a sleep is read with that sleep. -/
theorem exists_readConfig_of_span {span : Duration} (h : IsWhole configFormat.Value text written)
    (hsleep : written.sleep = some (secs, nanos))
    (hspan : Duration.ofParts? secs nanos = some span) :
    ∃ config, readConfig build text = .ok config ∧ config.yieldSleep = span := by
  simp only [readConfig_of_written build h, WrittenConfig.parts, WrittenConfig.span, hsleep, hspan,
    Except.map]
  exact ⟨_, rfl, rfl⟩

/-- A sleep is too long exactly if its seconds with those that its nanoseconds make are no word; a
lock is refused exactly for a sleep of no length; and otherwise every run with the lock hands the
sleeper the sleep that was given and nothing else. No run with any new lock hands it a span of no
length. -/
theorem configured_sleep_is_slept (value : σ) :
    (∀ text written secs nanos, IsWhole configFormat.Value text written →
      written.sleep = some (secs, nanos) →
      (readConfig build text = .error .durationOverflow ↔
        UInt64.size ≤ secs.toNat + nanos.toNat / 1000000000) ∧
      (secs.toNat + nanos.toNat / 1000000000 < UInt64.size →
        ∃ config, readConfig build text = .ok config ∧
          (Lock.withConfig value config = .error .zeroYieldSleep ↔
            secs.toNat * 1000000000 + nanos.toNat = 0) ∧
          (secs.toNat * 1000000000 + nanos.toNat ≠ 0 →
            ∃ lock, Lock.withConfig value config = .ok lock ∧
              ∀ teardown start turns world, start.lock = { lock with teardown } →
                start.threads = {} → Run build start turns world →
                ∀ span ∈ spansIn turns,
                  span.toNanos = secs.toNat * 1000000000 + nanos.toNat))) ∧
    (∀ (start world : World σ) turns, start.IsNew → Run build start turns world →
      ∀ span ∈ spansIn turns, span.toNanos ≠ 0) := by
  refine ⟨fun text written secs nanos hwhole hsleep ↦ ?_,
    fun start world turns hnew run span hspan ↦ ?_⟩
  · cases hspan : Duration.ofParts? secs nanos with
    | none =>
      have hlong : UInt64.size ≤ secs.toNat + nanos.toNat / 1000000000 :=
        (Duration.ofParts?_eq_none_iff secs nanos).mp hspan
      have hread := readConfig_of_overflow build hwhole hsleep hspan
      exact ⟨iff_of_true hread hlong, fun hshort ↦ absurd hlong (Nat.not_le.mpr hshort)⟩
    | some span =>
      have hshort : ¬UInt64.size ≤ secs.toNat + nanos.toNat / 1000000000 := by
        intro hlong
        cases hspan.symm.trans ((Duration.ofParts?_eq_none_iff secs nanos).mpr hlong)
      obtain ⟨config, hread, rfl⟩ := exists_readConfig_of_span build hwhole hsleep hspan
      have hlength := Duration.toNanos_ofParts? hspan
      rw [← hlength]
      have hzero := Lock.withConfig_eq_error_iff value config
      refine ⟨iff_of_false ?_ hshort, fun _ ↦ ⟨config, hread, hzero, fun hne ↦ ?_⟩⟩
      · rw [hread]
        nofun
      · have hlock := Lock.withConfig_of_ne_zero value hne
        refine ⟨_, hlock, fun teardown start turns world hstart hthreads run span hspan ↦ ?_⟩
        have hnew : start.IsNew := ⟨hstart ▸ Lock.isNew_of_withConfig hlock teardown, hthreads⟩
        rw [run.yieldSleep_of_mem (Run.nil.reachable hnew) hspan, hstart]
  · rw [run.yieldSleep_of_mem (Run.nil.reachable hnew) hspan]
    exact hnew.lock.yieldSleep_ne_zero

/-- Seconds that the nanoseconds make carry into the sleep that a worker is put to, or out of the
word; a sleep of no length is refused. -/
theorem configured_sleep_carries :
    (∃ config lock turns world, readConfig .checked "[[1,1500000000]]" = .ok config ∧
      Lock.withConfig () config = .ok lock ∧ Run .checked { lock } turns world ∧
      (spansIn turns).length = 1 ∧ ∀ span ∈ spansIn turns, span.toNanos = 2500000000 ∧
        span.toNanos ≠ 0) ∧
    readConfig .checked "[[18446744073709551615,1000000000]]" = .error .durationOverflow ∧
    ∃ config, readConfig .checked "[[0,0]]" = .ok config ∧
      Lock.withConfig () config = .error .zeroYieldSleep := by
  have hwhole (secs : UInt64) (nanos : UInt32) (text : String)
      (htext : text.toList = '[' :: '[' :: (Nat.toDigits 10 secs.toNat ++
        ',' :: (Nat.toDigits 10 nanos.toNat ++ [']', ']']))) :
      IsWhole configFormat.Value text { sleep := some (secs, nanos) } := by
    refine ⟨_, [], .nil _, ?_, .nil _⟩
    rw [htext]
    have hsleep := writtenSleep_array secs nanos [']']
    exact .inr <| .mk <| .more (.first (.nil _)) rfl ⟨_, hsleep, rfl⟩ <| .done (.inr rfl) (.nil _)
  obtain ⟨hconfig, hspans⟩ := configured_sleep_is_slept .checked ()
  obtain ⟨-, hshort⟩ := hconfig _ _ _ _ (hwhole 1 1500000000 "[[1,1500000000]]" rfl) rfl
  obtain ⟨hlong, -⟩ := hconfig _ _ _ _
    (hwhole 18446744073709551615 1000000000 "[[18446744073709551615,1000000000]]" rfl) rfl
  obtain ⟨-, hzero⟩ := hconfig _ _ _ _ (hwhole 0 0 "[[0,0]]" rfl) rfl
  refine ⟨?_, hlong.mpr (by decide), ?_⟩
  · obtain ⟨config, hread, -, hlock⟩ := hshort (by decide)
    obtain ⟨lock, hlock, hslept⟩ := hlock (by decide)
    have hcarried : readConfig .checked "[[1,1500000000]]" =
        .ok { Config.standard .checked with yieldSleep := ⟨2, 500000000⟩ } := by
      rfl
    obtain rfl := Except.ok.inj (hread.symm.trans hcarried)
    obtain rfl := Lock.eq_of_withConfig hlock
    let config : Config := { Config.standard .checked with yieldSleep := ⟨2, 500000000⟩ }
    let start : World Unit := { lock := { value := (), config } }
    let moves : List (Move Unit) :=
      [.call "worker" .adopt, .step "worker", .call "other" .acquire, .step "other",
        .call "worker" .yieldNow, .step "worker"]
    have hplay : ∃ played ∈ start.play? .checked moves, (spansIn played.1).length = 1 := by
      decide +kernel
    obtain ⟨⟨turns, world⟩, hturns, hlength⟩ := hplay
    have hrun := run_of_play? hturns
    refine ⟨_, _, turns, world, hread, hlock, hrun, hlength, fun span hspan ↦ ⟨?_, ?_⟩⟩
    · exact hslept none _ _ _ rfl rfl hrun span hspan
    · exact hspans _ _ _ ⟨.withConfig hlock, rfl⟩ hrun span hspan
  · obtain ⟨config, hread, hrefused, -⟩ := hzero (by decide)
    exact ⟨config, hread, hrefused.mpr rfl⟩

end

end YieldLock
