import YieldLock.Proofs.Ending
import YieldLock.Proofs.History

/-!
# The end is announced last

When a teardown is entered, its thread has lowered the signal, given up the lock
for good and taken the teardown out, and the end is not announced yet. Once it is
announced, all of that has happened, whatever the session went through before.
Main statements: `Reachable.isPrepared`, for a thread inside its teardown,
`Reachable.isOver`, for a lock whose end is announced, and
`teardown_precedes_announcement`.
-/

namespace YieldLock

variable {σ : Type}

/-- A probing teardown on a lock whose signal is lowered asks in vain and changes nothing. -/
theorem Teardown.run_probe_of_lowered {lock : Lock σ} (h : lock.keepAlive.isSet = false)
    (thread : Thread) :
    probe.run thread lock =
      ([.noted (probeText thread lock .alreadyRequested)], none, lock.keepAlive) := by
  unfold run
  rw [Lock.requestShutdown_of_lowered h]
  rfl

/-- A note of a text, which a teardown has left. -/
def Event.isNote (text : String) : Event σ → Bool
  | .entry (.noted other) => other = text
  | _ => false

/-- The end of the session is still to be completed. -/
def EndStage.isOpen : EndStage → Bool
  | complete => false
  | _ => true

namespace Activity

/-- The thread has taken the teardown out of the lock and not announced the end yet. -/
def hasTakenOut : Activity σ → Bool
  | busy _ (.tearingDown _) | busy _ .marking => true
  | _ => false

theorem followsGiveUp_of_hasTakenOut {activity : Activity σ}
    (h : activity.hasTakenOut = true) : activity.followsGiveUp = true := by
  cases activity with
  | idle | finished => cases h
  | busy call point =>
    cases point with
    | tearingDown | marking => rfl
    | _ => cases h

end Activity

namespace ThreadState

section

variable {build : Build} {now : Nat} {me : Thread} {lock : Lock σ} {self : ThreadState σ}
  {call? : Option (Call σ)} {effect : Effect σ}

/-- A teardown is entered by a thread that stands before it, and by nobody else. -/
theorem Rule.teardowns_cases (rule : Rule build now me lock self call? effect) :
    effect.teardowns = [] ∨ ∃ call teardown, call? = none ∧
      self.activity = .busy call (.tearingDown teardown) ∧ effect.teardowns = [teardown] := by
  cases hpoint : self.activity.followsGiveUp with
  | false => exact .inl (rule.end_frame hpoint).2.2
  | true =>
    cases rule with
    | dispose | disposeNone => exact .inl (teardowns_goOn ..)
    | mark => exact .inl (teardowns_conclude ..)
    | @tearDown call teardown hbusy =>
      refine .inr ⟨call, teardown, rfl, hbusy, ?_⟩
      rw [Effect.teardowns_tornDown]
      exact congrArg (teardown :: ·) (Event.filterMap_tornDown?_entries _)
    | @tearDownFailed call teardown panic hbusy =>
      refine .inr ⟨call, teardown, rfl, hbusy, ?_⟩
      rw [Effect.teardowns_tornDown]
      exact congrArg (teardown :: ·) (teardowns_fail ..)
    | park => exact .inl rfl
    | _ hstands =>
      rw [hstands] at hpoint
      cases hpoint

/-- A note is left by a teardown that is entered, if there is no teardown but the one that leaves
it. -/
theorem Rule.countP_isNote (rule : Rule build now me lock self call? effect)
    (hsound : self.IsSound) {text : String}
    (hnote : ∀ call teardown, self.activity = .busy call (.tearingDown teardown) →
      teardown = .note text) :
    effect.events.countP (Event.isNote text) = effect.teardowns.length := by
  by_cases hstands : ∃ call teardown, self.activity = .busy call (.tearingDown teardown)
  · obtain ⟨call, teardown, hbusy⟩ := hstands
    obtain rfl := hnote call teardown hbusy
    cases rule with
    | tearDown hstands =>
      cases hbusy.symm.trans hstands
      simp [Teardown.run, Effect.teardowns, Event.tornDown?, Event.isNote]
    | tearDownFailed hstands hpanic =>
      cases hbusy.symm.trans hstands
      cases hpanic
    | park hstands hwants =>
      cases hbusy.symm.trans hstands
      cases hwants
    | _ hstands => cases hbusy.symm.trans hstands
  · obtain hnone | ⟨call, teardown, _, hbusy, _⟩ := rule.teardowns_cases
    · rw [hnone, List.length_nil, List.countP_eq_zero]
      intro event hmem
      cases rule.origin hsound event hmem with
      | noted _ call teardown hbusy => exact absurd ⟨call, teardown, hbusy⟩ hstands
      | logged | slept | tornDown | answered => simp [Event.isNote]
    · exact absurd ⟨call, teardown, hbusy⟩ hstands

/-- Where a thread has taken the teardown out, there is none left. -/
theorem Rule.teardown_eq_none (rule : Rule build now me lock self call? effect)
    (h : self.activity.hasTakenOut = true → lock.teardown = none)
    (hafter : effect.self.activity.hasTakenOut = true) : effect.lock.teardown = none := by
  have hpoint := Activity.followsGiveUp_of_hasTakenOut hafter
  cases rule with
  | dispose | disposeNone => rfl
  | tearDown hbusy => exact h (by rw [hbusy]; rfl)
  | park => exact h hafter
  | closeRunning | recheck | retake | close => cases (followsGiveUp_check ..).symm.trans hpoint
  | obtainUnmatched | startLate | adoptLost | giveUpNested | tearDownFailed =>
    cases (followsGiveUp_fail ..).symm.trans hpoint
  | dropEnded | finishEnded | mark => cases (followsGiveUp_conclude ..).symm.trans hpoint
  | _ => cases hafter

/-- The end is announced by a thread that stands right before it. -/
theorem Rule.terminated_or_marking (rule : Rule build now me lock self call? effect) :
    effect.lock.terminated = lock.terminated ∨ ∃ call, self.activity = .busy call .marking := by
  cases hpoint : self.activity.followsGiveUp with
  | false => exact .inl (rule.end_frame hpoint).2.1
  | true =>
    cases rule with
    | @mark call hbusy => exact .inr ⟨call, hbusy⟩
    | tearDownFailed => exact .inl (by rw [lock_fail])
    | dispose | disposeNone | tearDown | park => exact .inl rfl
    | _ hstands =>
      rw [hstands] at hpoint
      cases hpoint

/-- As long as the end of a session is not complete, it is not announced. -/
theorem Rule.unannounced (rule : Rule build now me lock self call? effect)
    (hsound : self.IsSound) (hworker : lock.worker = none → lock.terminated.isSet = false)
    (h : ∀ stage, self.endStage = some stage → stage.isOpen = true →
      lock.terminated.isSet = false)
    {stage : EndStage} (hstage : effect.self.endStage = some stage)
    (hopen : stage.isOpen = true) : effect.lock.terminated.isSet = false := by
  cases hpoint : self.activity.followsGiveUp with
  | false =>
    rw [(rule.end_frame hpoint).2.1]
    obtain hkept | hgone | ⟨hunadopted, _⟩ := rule.endStage_kept hsound hpoint
    · exact h stage (hkept.symm.trans hstage) hopen
    · rw [endStage, hgone] at hstage
      cases hstage
    · exact hworker hunadopted
  | true =>
    have hended := hsound.ended_of_followsGiveUp hpoint
    cases rule with
    | mark =>
      rw [endStage_conclude hended rfl _ _ hstage] at hopen
      cases hopen
    | tearDownFailed =>
      rw [endStage_fail hended rfl _ _ _ _ hstage] at hopen
      cases hopen
    | dispose hbusy | disposeNone hbusy =>
      exact h .ahead (by rw [endStage, hended, hbusy]; rfl) rfl
    | @tearDown _ teardown hbusy =>
      exact h (.takenOut teardown) (by rw [endStage, hended, hbusy]; rfl) rfl
    | park => exact h stage hstage hopen
    | _ hstands =>
      rw [hstands] at hpoint
      cases hpoint

end

end ThreadState

namespace World

/-- As long as there is no worker or its end is not complete, the end is not announced. -/
structure AnnouncesLast (world : World σ) : Prop where
  unadopted : world.lock.worker = none → world.lock.terminated.isSet = false
  threads : ∀ name stage, (world.thread name).endStage = some stage → stage.isOpen = true →
    world.lock.terminated.isSet = false

/-- What holds when a thread enters the teardown. -/
structure IsPrepared (world : World σ) (me : Thread) : Prop where
  worker : world.lock.worker = some me
  lowered : world.lock.keepAlive.isSet = false
  session : (world.thread me).session = some { phase := .terminated, holds := false }
  unannounced : world.lock.terminated.isSet = false

/-- What holds once the end is announced. -/
structure IsOver (world : World σ) : Prop where
  worker : world.lock.worker.isSome = true
  lowered : world.lock.keepAlive.isSet = false
  teardown : world.lock.teardown = none
  outside : ∀ me call teardown,
    (world.thread me).activity ≠ .busy call (.tearingDown teardown)
  session : ∀ me session, (world.thread me).session = some session →
    session = { phase := .terminated, holds := false }

end World

section

variable {build : Build} {start world next : World σ} {turns : List (Turn σ)} {me : Thread}
  {move : Move σ} {events : List (Event σ)}

theorem World.Change.announcesLast (change : World.Change build world move next events)
    (h : Reachable build world) (hlast : world.AnnouncesLast) : next.AnnouncesLast := by
  cases change with
  | enter name title =>
    refine ⟨hlast.unadopted, fun other stage hstage hopen ↦ ?_⟩
    rw [World.thread_enlist] at hstage
    split at hstage
    · cases hstage
    · exact hlast.threads other stage hstage hopen
  | pass | spawnRefused => exact ⟨hlast.unadopted, hlast.threads⟩
  | spawn name child =>
    refine ⟨hlast.unadopted, fun other stage hstage hopen ↦ ?_⟩
    simp only [World.thread, Roster.get_set] at hstage
    split at hstage
    · exact hlast.threads name stage hstage hopen
    · split at hstage
      · cases hstage
      · exact hlast.threads other stage hstage hopen
  | own name call? effect _ rule =>
    have hfits := h.fits name
    refine ⟨fun hworker ↦ ?_, fun other stage hstage hopen ↦ ?_⟩
    · have hbefore : world.lock.worker = none := by
        cases hsome : world.lock.worker with
        | none => rfl
        | some worker => cases (rule.advances.worker _ hsome).symm.trans hworker
      have hframe := rule.end_frame_of_none hfits.sound (hfits.session_eq_none hbefore)
      rw [World.lock_after, hframe.2.1]
      exact hlast.unadopted hbefore
    · rw [World.thread_after] at hstage
      split at hstage
      · exact rule.unannounced hfits.sound hlast.unadopted (hlast.threads name) hstage hopen
      · rename_i hne
        -- A thread with a session is the worker, so the thread that moved has none.
        obtain ⟨session, hsession, _⟩ := Option.map_eq_some_iff.mp hstage
        have hworker := (h.fits other).worker (by rw [hsession]; rfl)
        have hframe :=
          rule.end_frame_of_none hfits.sound (h.session_eq_none hworker (Ne.symm hne))
        rw [World.lock_after, hframe.2.1]
        exact hlast.threads other stage hstage hopen

theorem Reachable.announcesLast (h : Reachable build world) : world.AnnouncesLast := by
  refine h.induct (P := World.AnnouncesLast) ?_ ?_
  · intro start hnew
    obtain ⟨value, config, teardown, hlock⟩ := hnew.lock.exists_eq
    refine ⟨fun _ ↦ by rw [hlock], fun name stage hstage ↦ ?_⟩
    rw [World.thread_of_new hnew] at hstage
    cases hstage
  · exact fun world move next events hreach ih change ↦ change.announcesLast hreach ih

/-- A thread that has given up the lock for good has lowered the signal. -/
theorem Reachable.lowered_of_followsGiveUp (h : Reachable build world)
    (hpoint : (world.thread me).activity.followsGiveUp = true) :
    world.lock.keepAlive.isSet = false :=
  h.lowered_of_ended ((h.fits me).sound.ended_of_followsGiveUp hpoint) rfl

theorem Reachable.isPrepared (h : Reachable build world) {call : Call σ} {teardown : Teardown}
    (hbusy : (world.thread me).activity = .busy call (.tearingDown teardown)) :
    world.IsPrepared me := by
  have hpoint : (world.thread me).activity.followsGiveUp = true := by
    rw [hbusy]
    rfl
  have hended := (h.fits me).sound.ended_of_followsGiveUp hpoint
  refine ⟨(h.fits me).worker (by rw [hended]; rfl), h.lowered_of_followsGiveUp hpoint, hended, ?_⟩
  apply h.announcesLast.threads me (.takenOut teardown) _ rfl
  rw [ThreadState.endStage, hended, hbusy]
  rfl

/-- Where a thread has taken the teardown out, there is none left. -/
theorem Reachable.teardown_eq_none (h : Reachable build world)
    (htaken : (world.thread me).activity.hasTakenOut = true) : world.lock.teardown = none := by
  refine h.forall_threads
    (P := fun lock _ self ↦ self.activity.hasTakenOut = true → lock.teardown = none)
    ?_ ?_ ?_ ?_ ?_ ?_ me htaken
  · exact fun _ _ _ ↦ nofun
  · exact fun _ _ _ _ ↦ nofun
  · exact fun _ _ _ _ ↦ nofun
  · exact fun _ _ _ _ _ ih ↦ ih
  · exact fun _ _ _ _ _ _ rule ih ↦ rule.teardown_eq_none ih
  · intro now lock name self call? effect other state rule _ ih hother
    obtain hkept | hnone := rule.advances.teardown
    · exact hkept.trans (ih hother)
    · exact hnone

theorem World.Change.isOver (change : World.Change build world move next events)
    (h : Reachable build world)
    (hover : world.lock.terminated.isSet = true →
      world.lock.worker.isSome = true ∧ world.lock.keepAlive.isSet = false ∧
        world.lock.teardown = none)
    (hset : next.lock.terminated.isSet = true) :
    next.lock.worker.isSome = true ∧ next.lock.keepAlive.isSet = false ∧
      next.lock.teardown = none := by
  have hadvances := change.advances
  suffices hbefore : world.lock.worker.isSome = true ∧ world.lock.keepAlive.isSet = false ∧
      world.lock.teardown = none by
    obtain ⟨hworker, hlowered, hnone⟩ := hbefore
    refine ⟨hadvances.worker_isSome hworker, hadvances.keepAlive hlowered, ?_⟩
    exact hadvances.teardown.elim (fun hkept ↦ hkept.trans hnone) id
  cases change with
  | enter | pass | spawn | spawnRefused => exact hover hset
  | own name call? effect _ rule =>
    obtain hkept | ⟨call, hbusy⟩ := rule.terminated_or_marking
    · rw [World.lock_after, hkept] at hset
      exact hover hset
    · have hpoint : (world.thread name).activity.followsGiveUp = true := by
        rw [hbusy]
        rfl
      have hended := (h.fits name).sound.ended_of_followsGiveUp hpoint
      refine ⟨?_, h.lowered_of_followsGiveUp hpoint, h.teardown_eq_none (by rw [hbusy]; rfl)⟩
      rw [(h.fits name).worker (by rw [hended]; rfl)]
      rfl

theorem Reachable.isOver (h : Reachable build world)
    (hset : world.lock.terminated.isSet = true) : world.IsOver := by
  obtain ⟨hworker, hlowered, hnone⟩ := h.induct
    (P := fun world ↦ world.lock.terminated.isSet = true →
      world.lock.worker.isSome = true ∧ world.lock.keepAlive.isSet = false ∧
        world.lock.teardown = none)
    (fun start hnew hset ↦ by
      obtain ⟨value, config, teardown, hlock⟩ := hnew.lock.exists_eq
      rw [hlock] at hset
      cases hset)
    (fun world move next events hreach ih change ↦ change.isOver hreach ih) hset
  refine ⟨hworker, hlowered, hnone, fun me call teardown hbusy ↦ ?_, fun me session hsession ↦ ?_⟩
  · rw [(h.isPrepared hbusy).unannounced] at hset
    cases hset
  · have hphase : session.phase = .terminated := by
      apply Classical.byContradiction
      intro hlive
      have hstage := ThreadState.endStage_of_live hsession hlive
      rw [h.announcesLast.threads me .ahead hstage rfl] at hset
      cases hset
    have hholds : session.holds = false := by
      apply (h.fits me).sound.holds session hsession
      rw [hphase]
      nofun
    calc
      session = ⟨session.phase, session.holds⟩ := rfl
      _ = { phase := .terminated, holds := false } := by rw [hphase, hholds]

/-- A turn enters a teardown only if its thread stands before it. -/
theorem Turn.IsMove.tearingDown {turn : Turn σ} (hmove : turn.IsMove build) :
    turn.events.filterMap Event.tornDown? = [] ∨ ∃ me call teardown, turn.move = .step me ∧
      (turn.before.thread me).activity = .busy call (.tearingDown teardown) ∧
      turn.events.filterMap Event.tornDown? = [teardown] := by
  obtain ⟨before, move, after, events⟩ := turn
  have change : World.Change build before move after events := World.change_of_move? hmove
  cases change with
  | enter | pass | spawn | spawnRefused => exact .inl rfl
  | own name call? effect _ rule =>
    obtain hnone | ⟨call, teardown, rfl, hbusy, hone⟩ := rule.teardowns_cases
    · exact .inl hnone
    · exact .inr ⟨name, call, teardown, rfl, hbusy, hone⟩

/-- A turn that shows a teardown is a step of a thread that is prepared for it. -/
theorem Turn.IsMove.isPrepared {turn : Turn σ} (hmove : turn.IsMove build)
    (h : Reachable build turn.before) {teardown : Teardown}
    (hevent : .tornDown teardown ∈ turn.events) :
    ∃ me call, turn.move = .step me ∧
      (turn.before.thread me).activity = .busy call (.tearingDown teardown) ∧
      turn.before.IsPrepared me := by
  have hshown : teardown ∈ turn.events.filterMap Event.tornDown? :=
    List.mem_filterMap.mpr ⟨_, hevent, rfl⟩
  obtain hnone | ⟨me, call, entered, hsteps, hbusy, hone⟩ := hmove.tearingDown
  · rw [hnone] at hshown
    cases hshown
  · rw [hone, List.mem_singleton] at hshown
    subst hshown
    exact ⟨me, call, hsteps, hbusy, h.isPrepared hbusy⟩

/-- A teardown that is about to be entered is the one that was installed. -/
theorem Run.teardown_eq (run : Run build start turns world) (hnew : start.IsNew) {call : Call σ}
    {teardown : Teardown}
    (hbusy : (world.thread me).activity = .busy call (.tearingDown teardown)) :
    start.lock.teardown = some teardown ∧ enteredIn turns = [] := by
  refine (run.endsWell hnew).threads me (.takenOut teardown) ?_
  rw [ThreadState.endStage, ((run.reachable hnew).isPrepared hbusy).session, hbusy]
  rfl

/-- A run leaves the note of its teardown as often as it enters the teardown. -/
theorem Run.countP_isNote (run : Run build start turns world) (hnew : start.IsNew) {text : String}
    (hteardown : start.lock.teardown = some (.note text)) :
    (shownIn turns).countP (Event.isNote text) = (enteredIn turns).length := by
  induction run with
  | nil => rfl
  | @snoc turns turn run hmove ih =>
    rw [countP_shownIn_snoc, ih, enteredIn_append, enteredIn_singleton, List.length_append]
    congr 1
    obtain ⟨before, move, after, events⟩ := turn
    have change : World.Change build before move after events := World.change_of_move? hmove
    cases change with
    | enter | pass | spawn | spawnRefused => rfl
    | own name call? effect _ rule =>
      apply rule.countP_isNote ((run.reachable hnew).fits name).sound
      intro call teardown hbusy
      obtain ⟨hinstalled, _⟩ := run.teardown_eq hnew hbusy
      exact Option.some_inj.mp (hinstalled.symm.trans hteardown)

/-- A run enters nothing or what was installed. -/
theorem Run.enteredIn_cases (run : Run build start turns world) (hnew : start.IsNew) :
    enteredIn turns = [] ∨ enteredIn turns = start.lock.teardown.toList := by
  induction run with
  | nil => exact .inl rfl
  | @snoc turns turn run hmove ih =>
    rw [enteredIn_append, enteredIn_singleton]
    obtain hnone | ⟨me, call, teardown, _, hbusy, hone⟩ := hmove.tearingDown
    · rw [hnone, List.append_nil]
      exact ih
    · right
      obtain ⟨hinstalled, hbefore⟩ := run.teardown_eq hnew hbusy
      rw [hone, hbefore, hinstalled]
      rfl

/-- What a probing teardown notes when it is entered. -/
theorem Reachable.events_of_probe {turn : Turn σ} (h : Reachable build turn.before)
    (hmove : turn.IsMove build) (hsteps : turn.move = .step me) {call : Call σ}
    (hbusy : (turn.before.thread me).activity = .busy call (.tearingDown .probe)) :
    turn.events = [.tornDown .probe,
      .entry (.noted (Teardown.probeText me turn.before.lock .alreadyRequested))] := by
  have hstep := hmove.step?_eq hsteps
  rw [World.step?_of_busy hbusy rfl, ThreadState.step?, hbusy] at hstep
  simp only [ThreadState.tearDown?, Teardown.run_probe_of_lowered (h.isPrepared hbusy).lowered,
    Option.map_some, Option.some_inj, Prod.mk.injEq] at hstep
  exact hstep.2.symm

/-- A run enters a teardown at most once, and it is the one that was installed last. It is entered
on the worker's thread, when the signal is lowered, the session has ended without a level and the
end is not announced, so that a request for shutdown made in it comes too late. Where the end is
announced, all of this has happened and no teardown is left; and it stays announced. -/
theorem teardown_precedes_announcement (hnew : start.IsNew)
    (run : Run build start turns world) :
    ((enteredIn turns).length ≤ 1 ∧
      (∀ teardown ∈ enteredIn turns, start.lock.teardown = some teardown) ∧
      ∀ (lock : Lock σ) installed, start.lock = lock.withTeardown installed →
        ∀ teardown ∈ enteredIn turns, teardown = installed) ∧
    (∀ turn ∈ turns, ∀ teardown, .tornDown teardown ∈ turn.events →
      ∃ me, turn.move = .step me ∧ turn.before.IsPrepared me ∧
        (∀ name, turn.before.lock.requestShutdown name =
          (.alreadyRequested, [], turn.before.lock)) ∧
        (teardown = .probe → turn.events = [.tornDown .probe,
          .entry (.noted (Teardown.probeText me turn.before.lock .alreadyRequested))])) ∧
    (world.lock.terminated.isSet = true → world.IsOver) ∧
    (∀ more later, Run build world more later → world.lock.terminated.isSet = true →
      later.lock.terminated.isSet = true) := by
  have hreach : Reachable build world := run.reachable hnew
  have hinstalled : ∀ teardown ∈ enteredIn turns, start.lock.teardown = some teardown := by
    intro teardown hmem
    obtain hnone | hone := run.enteredIn_cases hnew
    · rw [hnone] at hmem
      cases hmem
    · rw [hone] at hmem
      exact Option.mem_toList.mp hmem
  refine ⟨⟨?_, hinstalled, ?_⟩, ?_, hreach.isOver, ?_⟩
  · obtain hnone | hone := run.enteredIn_cases hnew
    · rw [hnone]
      exact Nat.zero_le 1
    · rw [hone]
      cases start.lock.teardown with
      | none => exact Nat.zero_le 1
      | some => exact Nat.le_refl 1
  · intro lock installed hlock teardown hmem
    have hsome := hinstalled teardown hmem
    rw [hlock] at hsome
    exact (Option.some_inj.mp hsome).symm
  · intro turn hmem teardown hevent
    obtain ⟨hturn, hmove⟩ := run.isMove_of_mem (Run.nil.reachable hnew) hmem
    obtain ⟨me, call, hsteps, hbusy, hprepared⟩ := hmove.isPrepared hturn hevent
    refine ⟨me, hsteps, hprepared, Lock.requestShutdown_of_lowered hprepared.lowered, ?_⟩
    rintro rfl
    exact hturn.events_of_probe hmove hsteps hbusy
  · exact fun more later hmore ↦ hmore.advances.terminated

/-- A session whose first end was stopped by a guard ends a second time: the teardown installed last
is entered in it, and the lock is over. -/
theorem second_end_enters_probe :
    ∃ (start world : World Unit) (turns : List (Turn Unit)), Run .checked start turns world ∧
      (∃ turn ∈ turns, turn.Answers "worker" .endSession (.panicked .nestedExit)) ∧
      enteredIn turns = [.probe] ∧ (∀ teardown ∈ enteredIn turns, teardown = .probe) ∧
      world.lock.terminated.isSet = true ∧ world.IsOver := by
  let lock : Lock Unit := (Lock.standard .checked ()).withTeardown (.note "bye")
  let start : World Unit := { lock := lock.withTeardown .probe }
  let moves : List (Move Unit) :=
    [.call "worker" .adopt, .step "worker", .call "worker" .tryAcquire,
      .call "worker" .endSession, .step "worker", .call "worker" .release,
      .call "worker" .endSession, .step "worker", .step "worker", .step "worker",
      .step "worker"]
  have hnew : start.IsNew := ⟨.withTeardown _ (.withTeardown _ (.standard .checked ())), rfl⟩
  have hplay : ∃ turns world, start.play? .checked moves = some (turns, world) ∧
      (∃ stopped, turns[4]? = some stopped ∧
        stopped.Answers "worker" .endSession (.panicked .nestedExit)) ∧
      enteredIn turns = [.probe] ∧ world.lock.terminated.isSet = true :=
    ⟨_, _, rfl, ⟨_, rfl, rfl, .head _⟩, rfl, rfl⟩
  obtain ⟨turns, world, hturns, ⟨stopped, hstopped, hanswers⟩, hentered, hset⟩ := hplay
  have hrun := run_of_play? hturns
  obtain ⟨⟨_, _, hlast⟩, _, hover, _⟩ := teardown_precedes_announcement hnew hrun
  exact ⟨start, world, turns, hrun, ⟨stopped, List.mem_of_getElem? hstopped, hanswers⟩, hentered,
    hlast lock .probe rfl, hset, hover hset⟩

end

end YieldLock
