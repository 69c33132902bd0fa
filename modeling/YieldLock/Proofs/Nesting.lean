import YieldLock.Proofs.Announcement

/-!
# The lock is handed over whole

In a checked build a worker that sleeps, opens a window or enters its teardown
owns no level of the lock at that moment: guards on its thread stop it before.
Only a session that ends while its thread unwinds is not stopped. Main
statements: `Rule.phaseStep`, what a step does to the phase of the session,
`Reachable.depth_eq_zero_of_followsGiveUp`, and `no_handover_while_nested`.
-/

namespace YieldLock

variable {σ : Type}

namespace ThreadState

/-- The phase of the session, if the thread has one. -/
def phase? (self : ThreadState σ) : Option Phase := self.session.map Session.phase

/-- What a step does to the phase of the session. -/
inductive PhaseStep (build : Build) (me : Thread) (self : ThreadState σ)
    (call? : Option (Call σ)) (effect : Effect σ) : Prop where
  | keeps (h : effect.self.phase? = self.phase?)
  | drops (h : effect.self.phase? = none)
  | runs (h : effect.self.phase? = some .running)
  | opens (hcall : call? = some .openWindow) (h : effect.self.phase? = some .yielding)
      (hfree : build = .checked → effect.lock.mutex.isHeldBy me = false)
  | ends (hcall : call? = none) (h : effect.self.phase? = some .terminated)
      (hpoint : effect.self.activity.followsGiveUp = true)

section

variable {build : Build} {now : Nat} {me : Thread} {lock : Lock σ} {self : ThreadState σ}
  {call? : Option (Call σ)} {effect : Effect σ}

theorem phase?_congr {after : ThreadState σ} (h : after.session = self.session) :
    after.phase? = self.phase? := by
  rw [phase?, phase?, h]

theorem phase?_of_none (h : self.session = none) : self.phase? = none := by
  rw [phase?, h]
  rfl

theorem isSome_of_phase? {phase : Phase} (h : self.phase? = some phase) :
    self.session.isSome = true := by
  obtain ⟨session, hsession, _⟩ := Option.map_eq_some_iff.mp h
  rw [hsession]
  rfl

theorem Rule.phaseStep (rule : Rule build now me lock self call? effect) :
    PhaseStep build me self call? effect := by
  cases rule with
  | adoptWon => exact .runs rfl
  | openNested => exact .runs rfl
  | openWindow _ _ _ hfree => exact .opens rfl rfl hfree
  | close => exact .runs (phase?_congr (session_check ..))
  | giveUp => exact .ends rfl rfl rfl
  | giveUpNested _ hsession =>
    obtain hkept | hgone := session_fail _ _ _ _ _
    · apply PhaseStep.keeps
      rw [phase?, hkept, phase?, hsession]
      rfl
    · exact .drops (phase?_of_none hgone)
  | obtainUnmatched | startLate | adoptLost | tearDownFailed =>
    obtain hkept | hgone := session_fail _ _ _ _ _
    · exact .keeps (phase?_congr hkept)
    · exact .drops (phase?_of_none hgone)
  | dropEnded | finishEnded | mark =>
    obtain hkept | hgone := session_conclude _ _ _
    · exact .keeps (phase?_congr hkept)
    · exact .drops (phase?_of_none hgone)
  | closeRunning | retake | recheck => exact .keeps (phase?_congr (session_check ..))
  | _ => exact .keeps rfl

/-- A thread goes to sleep from a point where it polls, and in a checked build without a level. -/
theorem Rule.of_slept (rule : Rule .checked now me lock self call? effect) (hsound : self.IsSound)
    {span : Duration} (h : .entry (.slept span) ∈ effect.events) :
    call? = none ∧ self.activity = .busy .yieldNow .polling ∧ self.session.isSome = true ∧
      effect.lock.mutex.depth me = 0 := by
  cases rule.origin hsound _ h with
  | slept _ call hbusy =>
    obtain ⟨rfl, session, hsession, _⟩ := hsound.place _ _ hbusy
    cases rule with
    | pollSleep _ _ _ _ hfree =>
      refine ⟨rfl, hbusy, ?_, Mutex.isHeldBy_eq_false_iff.mp (hfree rfl)⟩
      rw [hsession]
      rfl
    | pollNone | pollNested | pollFree => cases List.mem_singleton.mp h
    | park => cases h
    | _ hstands => cases hbusy.symm.trans hstands

/-- A thread that has given up the lock for good goes on that way until its call is answered. -/
theorem Rule.followsGiveUp_kept (rule : Rule build now me lock self call? effect)
    (hpoint : self.activity.followsGiveUp = true) (hsilent : effect.answers = []) :
    effect.self.activity.followsGiveUp = true := by
  cases rule with
  | dispose | disposeNone | tearDown => rfl
  | park => exact hpoint
  | tearDownFailed =>
    rw [Effect.answers_tornDown, answers_fail] at hsilent
    cases hsilent
  | mark =>
    rw [answers_conclude] at hsilent
    cases hsilent
  | _ hstands =>
    rw [hstands] at hpoint
    cases hpoint

/-- The last step of a call that ends the session, if the call comes back with that. -/
theorem Rule.of_exit (rule : Rule build now me lock self call? effect)
    (hpoint : self.activity.followsGiveUp = true) (hexit : .flow .exit ∈ effect.answers) :
    effect.lock.mutex = lock.mutex ∧
      ∃ call, self.activity = .busy call .marking ∧ call.isUnwinding = false := by
  cases rule with
  | dispose | disposeNone =>
    rw [answers_goOn] at hexit
    cases hexit
  | tearDown =>
    rw [Effect.answers_tornDown, Effect.answers_entries] at hexit
    cases hexit
  | park => cases hexit
  | @tearDownFailed call =>
    rw [Effect.answers_tornDown, answers_fail, List.mem_singleton] at hexit
    cases call <;> cases hexit
  | @mark call hbusy =>
    rw [answers_conclude, List.mem_singleton] at hexit
    refine ⟨by rw [lock_conclude], call, hbusy, ?_⟩
    cases call with
    | unwindSession | finish => cases hexit
    | _ => rfl
  | _ hstands =>
    rw [hstands] at hpoint
    cases hpoint

/-- In a checked build guards keep a session from giving up the lock for good, unless its thread
unwinds. -/
def GivesUpWhole (self : ThreadState σ) : Prop :=
  ∀ call point, self.activity = .busy call point → point.followsGiveUp = true →
    call.isUnwinding = false → self.guards = 0

theorem givesUpWhole_of_not_followsGiveUp (h : self.activity.followsGiveUp = false) :
    self.GivesUpWhole := by
  intro call point hbusy hpoint
  rw [hbusy] at h
  cases hpoint.symm.trans h

theorem Rule.givesUpWhole (rule : Rule .checked now me lock self call? effect)
    (hfits : self.Fits lock me) (h : self.GivesUpWhole) : effect.self.GivesUpWhole := by
  cases rule with
  | @giveUp call session hbusy hsession hfree =>
    intro other point hother _ hcall
    cases hother
    calc
      self.guards = (lock.mutex.giveBackIf me session.holds).depth me :=
        Eq.symm (hfits.depth_giveBackIf hsession (by rw [hbusy]; rfl))
      _ = 0 := Mutex.isHeldBy_eq_false_iff.mp (hfree rfl hcall)
  | dispose hbusy | disposeNone hbusy | tearDown hbusy =>
    intro other point hother _ hcall
    cases hother
    exact h _ _ hbusy rfl hcall
  | park => exact h
  | closeRunning | recheck | retake | close =>
    exact givesUpWhole_of_not_followsGiveUp (followsGiveUp_check ..)
  | obtainUnmatched | startLate | adoptLost | giveUpNested | tearDownFailed =>
    exact givesUpWhole_of_not_followsGiveUp (followsGiveUp_fail ..)
  | dropEnded | finishEnded | mark =>
    exact givesUpWhole_of_not_followsGiveUp (followsGiveUp_conclude ..)
  | _ => exact givesUpWhole_of_not_followsGiveUp rfl

end

end ThreadState

section

variable {build : Build} {start world next : World σ} {turns : List (Turn σ)} {me : Thread}
  {move : Move σ} {events : List (Event σ)}

open ThreadState

theorem Reachable.givesUpWhole (h : Reachable .checked world) (name : Thread) :
    (world.thread name).GivesUpWhole := by
  refine h.induct (P := fun world ↦ ∀ name, (world.thread name).GivesUpWhole) ?_ ?_ name
  · intro start hnew name
    rw [World.thread_of_new hnew]
    exact givesUpWhole_of_not_followsGiveUp rfl
  · intro world move next events hreach ih change
    refine change.forall_threads (P := fun _ _ self ↦ self.GivesUpWhole) ih ?_ ?_ ?_ ?_ ?_
    · exact fun _ _ _ ↦ givesUpWhole_of_not_followsGiveUp rfl
    · exact fun _ _ _ ↦ givesUpWhole_of_not_followsGiveUp rfl
    · exact fun _ _ _ _ ih ↦ ih
    · exact fun name _ _ _ rule ih ↦ rule.givesUpWhole (hreach.fits name) ih
    · exact fun _ _ _ _ _ _ ih ↦ ih

/-- In a checked build a thread that has given up the lock for good owns no level of it, unless it
unwinds. -/
theorem Reachable.depth_eq_zero_of_followsGiveUp (h : Reachable .checked world) {call : Call σ}
    {point : Point} (hbusy : (world.thread me).activity = .busy call point)
    (hpoint : point.followsGiveUp = true) (hcall : call.isUnwinding = false) :
    world.lock.mutex.depth me = 0 := by
  have hfits := h.fits me
  have hended : (world.thread me).session = some { phase := .terminated, holds := false } := by
    apply hfits.sound.ended_of_followsGiveUp
    rw [hbusy]
    exact hpoint
  calc
    _ = (world.thread me).levels := hfits.depth
    _ = (world.thread me).guards := levels_of_holdsNoLevel (holdsNoLevel_of_some hended rfl)
    _ = 0 := h.givesUpWhole me call point hbusy hpoint hcall

/-- A move does to the phase of a session what a step of its thread does, if anything. -/
theorem World.Change.phase_cases (change : World.Change build world move next events)
    (me : Thread) :
    (next.thread me).phase? = (world.thread me).phase? ∨ (next.thread me).phase? = none ∨
      ∃ call? effect, move = .ofThread me call? ∧ next = world.after me effect ∧
        PhaseStep build me (world.thread me) call? effect := by
  cases change with
  | enter name title =>
    rw [World.thread_enlist]
    split
    · exact .inr (.inl rfl)
    · exact .inl rfl
  | pass | spawnRefused => exact .inl rfl
  | own name call? effect _ rule =>
    by_cases hname : me = name
    · subst hname
      exact .inr (.inr ⟨call?, effect, rfl, rfl, rule.phaseStep⟩)
    · rw [World.thread_after_of_ne world effect hname]
      exact .inl rfl
  | spawn name child =>
    simp only [World.thread, Roster.get_set]
    split
    · subst me
      exact .inl rfl
    · split
      · exact .inr (.inl rfl)
      · exact .inl rfl

theorem World.Change.of_yielding (change : World.Change .checked world move next events)
    (hclosed : (world.thread me).phase? ≠ some .yielding)
    (hopened : (next.thread me).phase? = some .yielding) :
    move = .call me .openWindow ∧ next.lock.mutex.depth me = 0 := by
  obtain hkept | hgone | ⟨call?, effect, rfl, rfl, hstep⟩ := change.phase_cases me
  · exact absurd (hkept.symm.trans hopened) hclosed
  · cases hgone.symm.trans hopened
  · rw [World.thread_after_self] at hopened
    cases hstep with
    | keeps h => exact absurd (h.symm.trans hopened) hclosed
    | opens hcall _ hfree =>
      subst hcall
      exact ⟨rfl, Mutex.isHeldBy_eq_false_iff.mp (hfree rfl)⟩
    | drops h | runs h | ends _ h => cases h.symm.trans hopened

theorem World.Change.of_terminated (change : World.Change build world move next events)
    (hlive : (world.thread me).phase? ≠ some .terminated)
    (hended : (next.thread me).phase? = some .terminated) :
    (next.thread me).activity.followsGiveUp = true := by
  obtain hkept | hgone | ⟨call?, effect, rfl, rfl, hstep⟩ := change.phase_cases me
  · exact absurd (hkept.symm.trans hended) hlive
  · cases hgone.symm.trans hended
  · rw [World.thread_after_self] at hended ⊢
    cases hstep with
    | keeps h => exact absurd (h.symm.trans hended) hlive
    | ends _ _ hpoint => exact hpoint
    | drops h | runs h | opens _ h => cases h.symm.trans hended

theorem World.Change.of_slept (change : World.Change .checked world move next events)
    (h : Reachable .checked world) {span : Duration} (hslept : .entry (.slept span) ∈ events) :
    ∃ me, move = .step me ∧ (world.thread me).activity = .busy .yieldNow .polling ∧
      next.lock.worker = some me ∧ next.lock.mutex.depth me = 0 := by
  cases change with
  | enter | pass => cases hslept
  | spawn | spawnRefused => cases List.mem_singleton.mp hslept
  | own name call? effect _ rule =>
    obtain ⟨rfl, hbusy, hsession, hdepth⟩ := rule.of_slept (h.fits name).sound hslept
    have hworker := rule.advances.worker name ((h.fits name).worker hsession)
    exact ⟨name, rfl, hbusy, hworker, hdepth⟩

theorem ThreadState.ne_default_of_followsGiveUp {self : ThreadState σ}
    (h : self.activity.followsGiveUp = true) : self ≠ {} := by
  rintro rfl
  cases h

/-- A thread that has given up the lock for good goes on that way for as long as none of its calls
is answered. -/
theorem Run.followsGiveUp_kept (run : Run build start turns world)
    (hpoint : (start.thread me).activity.followsGiveUp = true)
    (hsilent : ∀ turn ∈ turns, turn.move.thread? = some me →
      turn.events.filterMap Event.answer? = []) :
    (world.thread me).activity.followsGiveUp = true := by
  induction run with
  | nil => exact hpoint
  | @snoc turns turn run hmove ih =>
    have hearlier := ih fun earlier hmem ↦ hsilent earlier (List.mem_append_left _ hmem)
    have hlast := hsilent turn (List.mem_append_right _ (List.mem_singleton_self turn))
    obtain ⟨before, move, after, events⟩ := turn
    have change : World.Change build before move after events := World.change_of_move? hmove
    cases change.changeOf (ne_default_of_followsGiveUp hearlier) with
    | others _ hself =>
      simp only [hself]
      exact hearlier
    | own call? effect rule =>
      simp only [World.thread_after_self]
      exact rule.followsGiveUp_kept hearlier (hlast (Move.thread?_ofThread me call?))
    | spawns hidle =>
      rw [hidle] at hearlier
      cases hearlier

/-- A call that comes back from the end of a session leaves its thread without a level. -/
theorem Turn.depth_of_exit {turn : Turn σ} (hmove : turn.IsMove .checked)
    (h : Reachable .checked turn.before)
    (hpoint : (turn.before.thread me).activity.followsGiveUp = true) {call : Call σ}
    (hanswers : turn.Answers me call (.flow .exit)) : turn.after.lock.mutex.depth me = 0 := by
  obtain ⟨before, move, after, events⟩ := turn
  obtain ⟨hmine, hevent⟩ := hanswers
  have change : World.Change .checked before move after events := World.change_of_move? hmove
  cases change.changeOf (ne_default_of_followsGiveUp hpoint) with
  | others hother => exact absurd hmine hother
  | own call? effect rule =>
    obtain ⟨hmutex, made, hbusy, hcall⟩ := rule.of_exit hpoint (Event.mem_answers hevent)
    rw [World.lock_after, hmutex]
    exact h.depth_eq_zero_of_followsGiveUp hbusy rfl hcall
  | spawns hidle =>
    rw [hidle] at hpoint
    cases hpoint

/-- In a checked build the worker owns no level of the lock at the moment when it goes to sleep in
a yield, when its session comes into the yielding phase, and when it enters the teardown without
unwinding. So a call that ends the session never comes back with that while the worker still owns
the lock. -/
theorem no_handover_while_nested (hnew : start.IsNew) (run : Run .checked start turns world) :
    (∀ turn ∈ turns, ∀ span, .entry (.slept span) ∈ turn.events →
      ∃ me, turn.move = .step me ∧
        (turn.before.thread me).activity = .busy .yieldNow .polling ∧
        turn.after.lock.worker = some me ∧ turn.after.lock.mutex.depth me = 0) ∧
    (∀ turn ∈ turns, ∀ me, (turn.before.thread me).phase? ≠ some .yielding →
      (turn.after.thread me).phase? = some .yielding →
      turn.move = .call me .openWindow ∧ turn.after.lock.worker = some me ∧
        turn.after.lock.mutex.depth me = 0) ∧
    (∀ turn ∈ turns, ∀ teardown, .tornDown teardown ∈ turn.events →
      ∃ me call, turn.move = .step me ∧
        (turn.before.thread me).activity = .busy call (.tearingDown teardown) ∧
        turn.before.lock.worker = some me ∧
        (call.isUnwinding = false → turn.before.lock.mutex.depth me = 0)) ∧
    (∀ (ended answered : Turn σ) between me call, ended.before = world →
      ended.IsMove .checked → (ended.before.thread me).phase? ≠ some .terminated →
      (ended.after.thread me).phase? = some .terminated →
      Run .checked ended.after between answered.before →
      (∀ turn ∈ between, turn.move.thread? = some me →
        turn.events.filterMap Event.answer? = []) →
      answered.IsMove .checked → answered.Answers me call (.flow .exit) →
      answered.after.lock.mutex.depth me = 0) := by
  have hstart : Reachable .checked start := Run.nil.reachable hnew
  refine ⟨?_, ?_, ?_, ?_⟩
  · intro turn hmem span hslept
    obtain ⟨hturn, hmove⟩ := run.isMove_of_mem hstart hmem
    exact (World.change_of_move? hmove).of_slept hturn hslept
  · intro turn hmem me hclosed hopened
    obtain ⟨hturn, hmove⟩ := run.isMove_of_mem hstart hmem
    have hafter : Reachable .checked turn.after := hturn.move hmove
    have hworker : turn.after.lock.worker = some me :=
      (hafter.fits me).worker (isSome_of_phase? hopened)
    obtain ⟨hcall, hdepth⟩ := (World.change_of_move? hmove).of_yielding hclosed hopened
    exact ⟨hcall, hworker, hdepth⟩
  · intro turn hmem teardown hevent
    obtain ⟨hturn, hmove⟩ := run.isMove_of_mem hstart hmem
    obtain ⟨me, call, hsteps, hbusy, hprepared⟩ := hmove.isPrepared hturn hevent
    exact ⟨me, call, hsteps, hbusy, hprepared.worker,
      hturn.depth_eq_zero_of_followsGiveUp hbusy rfl⟩
  · rintro ended answered between me call rfl hmove hlive hended hrun hsilent hlast hanswers
    have hafter : Reachable .checked ended.after := (run.reachable hnew).move hmove
    have hpoint := (World.change_of_move? hmove).of_terminated hlive hended
    have hkept := hrun.followsGiveUp_kept hpoint hsilent
    exact Turn.depth_of_exit hlast (hafter.run hrun) hkept hanswers

/-- A guard on the worker's thread stops a yield; when it is released, the next yield goes to sleep
without a level, and the other thread can take the lock. -/
theorem worker_sleeps_without_level :
    ∃ (start world : World Unit) (turns : List (Turn Unit)), Run .checked start turns world ∧
      (∃ turn ∈ turns, turn.Answers "worker" .yieldNow (.panicked .nestedYield)) ∧
      ∃ turn ∈ turns, turn.move = .step "worker" ∧
        .entry (.slept turn.before.lock.config.yieldSleep) ∈ turn.events ∧
        turn.after.lock.mutex.depth "worker" = 0 := by
  let start : World Unit := { lock := .standard .checked () }
  let moves : List (Move Unit) :=
    [.call "worker" .adopt, .step "worker", .call "other" .acquire, .step "other",
      .call "worker" .acquire, .step "worker", .call "worker" .yieldNow, .step "worker",
      .call "worker" .release, .call "worker" .yieldNow, .step "worker"]
  have hplay : ∃ played ∈ start.play? .checked moves,
      ∃ stopped ∈ played.1[7]?, ∃ asleep ∈ played.1[10]?,
        (stopped.move = .step "worker" ∧
          .answered .yieldNow (.panicked .nestedYield) ∈ stopped.events) ∧
        asleep.move = .step "worker" ∧
          .entry (.slept asleep.before.lock.config.yieldSleep) ∈ asleep.events := by
    decide +kernel
  obtain ⟨⟨turns, world⟩, hturns, stopped, hstopped, asleep, hasleep, hanswers, hsteps, hslept⟩ :=
    hplay
  have hrun := run_of_play? hturns
  have hmem := List.mem_of_getElem? hasleep
  have hpanicked : stopped.Answers "worker" .yieldNow (.panicked .nestedYield) := by
    refine ⟨?_, hanswers.2⟩
    rw [hanswers.1]
    rfl
  obtain ⟨me, hmove, _, _, hdepth⟩ :=
    (no_handover_while_nested ⟨.standard .checked (), rfl⟩ hrun).1 asleep hmem _ hslept
  obtain rfl : "worker" = me := Move.step.inj (hsteps.symm.trans hmove)
  exact ⟨start, world, turns, hrun, ⟨stopped, List.mem_of_getElem? hstopped, hpanicked⟩, asleep,
    hmem, hsteps, hslept, hdepth⟩

end

end YieldLock
