import YieldLock.Proofs.Answering

/-!
# The end of a session

A session ends in stages: the level is given up, the teardown is taken out and
entered, and the end is announced. What a run has entered so far agrees at each
stage with the teardown that was installed at its start. Main statements:
`World.answersCall_drop`, a session can be dropped, and `dropped_session_has_ended`,
a session that is dropped has entered its teardown once, unless guards on its
thread stopped it first.
-/

namespace YieldLock

variable {σ : Type}

namespace Event

def tornDown? : Event σ → Option Teardown
  | .tornDown teardown => some teardown
  | _ => none

@[simp] theorem filterMap_tornDown?_entries (entries : List Entry) :
    (entries.map entry : List (Event σ)).filterMap tornDown? = [] := by
  simp [tornDown?]

@[simp] theorem filterMap_tornDown?_answered (call : Call σ) (reply : Answer σ) :
    [Event.answered call reply].filterMap tornDown? = [] := rfl

end Event

/-- The teardowns that a step enters. -/
def Effect.teardowns (effect : Effect σ) : List Teardown :=
  effect.events.filterMap Event.tornDown?

@[simp] theorem Effect.teardowns_tornDown (lock : Lock σ) (self : ThreadState σ)
    (teardown : Teardown) (events : List (Event σ)) :
    (Effect.mk lock self (.tornDown teardown :: events)).teardowns =
      teardown :: (Effect.mk lock self events).teardowns := rfl

/-- The teardowns that were entered in the turns of a run. -/
def enteredIn (turns : List (Turn σ)) : List Teardown :=
  turns.flatMap fun turn ↦ turn.events.filterMap Event.tornDown?

/-- How far the end of a session has come. -/
inductive EndStage where
  | ahead
  | takenOut (teardown : Teardown)
  | entered
  | complete
  deriving DecidableEq, Repr

/-- What the teardowns entered so far have to do with the one that was installed. -/
def Agrees (installed : Option Teardown) (lock : Lock σ) (entered : List Teardown) :
    EndStage → Prop
  | .ahead => lock.teardown = installed ∧ entered = []
  | .takenOut teardown => installed = some teardown ∧ entered = []
  | .entered => entered = installed.toList
  | .complete => entered = installed.toList ∧
      ((∀ text, installed ≠ some (.fail text)) → lock.terminated.isSet = true)

theorem Agrees.congr {installed : Option Teardown} {lock after : Lock σ} {entered : List Teardown}
    {stage : EndStage} (h : Agrees installed lock entered stage)
    (hteardown : after.teardown = lock.teardown)
    (hterminated : after.terminated = lock.terminated) : Agrees installed after entered stage := by
  cases stage with
  | ahead => exact ⟨hteardown.trans h.1, h.2⟩
  | takenOut | entered => exact h
  | complete =>
    refine ⟨h.1, fun hnofail ↦ ?_⟩
    rw [hterminated]
    exact h.2 hnofail

/-- The points of a call at which its session has given up the lock for good. -/
def Point.followsGiveUp : Point → Bool
  | disposing | tearingDown _ | marking => true
  | _ => false

namespace Activity

def followsGiveUp : Activity σ → Bool
  | busy _ point => point.followsGiveUp
  | _ => false

end Activity

namespace ThreadState

/-- The stage that the end of the thread's session has reached. -/
def endStage (self : ThreadState σ) : Option EndStage :=
  self.session.map fun session ↦
    match session.phase, self.activity with
    | .terminated, .busy _ (.tearingDown teardown) => .takenOut teardown
    | .terminated, .busy _ .marking => .entered
    | .terminated, .busy _ .disposing => .ahead
    | .terminated, _ => .complete
    | _, _ => .ahead

section

variable (lock : Lock σ) (self : ThreadState σ) (call : Call σ) (entries : List Entry)

@[simp] theorem teardowns_goOn (point : Point) :
    (goOn lock self call point entries).teardowns = [] :=
  Event.filterMap_tornDown?_entries entries

@[simp] theorem teardowns_answer (reply : Answer σ) :
    (answer lock self call reply entries).teardowns = [] := by
  simp [answer, Effect.teardowns, Event.tornDown?]

@[simp] theorem teardowns_finish (outcome : Option Panic) :
    (finish lock self call outcome entries).teardowns = [] := by
  simp [finish, Effect.teardowns, Event.tornDown?]

@[simp] theorem teardowns_conclude : (conclude lock self call).teardowns = [] := by
  unfold conclude
  split <;> simp

@[simp] theorem teardowns_fail (panic : Panic) :
    (fail lock self call panic entries).teardowns = [] := by
  unfold fail
  split <;> simp

@[simp] theorem teardowns_check (me : Thread) :
    (check me lock self call entries).teardowns = [] := by
  unfold check
  split <;> simp

end

section

variable {build : Build} {now : Nat} {me other : Thread} {lock : Lock σ} {self : ThreadState σ}
  {call? : Option (Call σ)} {effect : Effect σ}

/-- Only a thread that has given up the lock for good touches the teardown and the announcement. -/
theorem Rule.end_frame (rule : Rule build now me lock self call? effect)
    (hpoint : self.activity.followsGiveUp = false) :
    effect.lock.teardown = lock.teardown ∧ effect.lock.terminated = lock.terminated ∧
      effect.teardowns = [] := by
  cases rule with
  | dispose hbusy | disposeNone hbusy | tearDown hbusy | tearDownFailed hbusy | mark hbusy =>
    rw [hbusy] at hpoint
    cases hpoint
  | request =>
    rw [lock_answer, Lock.lock_requestShutdown]
    exact ⟨rfl, rfl, teardowns_answer ..⟩
  | closeRunning | recheck | retake | close =>
    rw [lock_check]
    exact ⟨rfl, rfl, teardowns_check ..⟩
  | dropEnded | finishEnded =>
    rw [lock_conclude]
    exact ⟨rfl, rfl, teardowns_conclude ..⟩
  | startLate | adoptLost | obtainUnmatched | giveUpNested =>
    rw [lock_fail]
    exact ⟨rfl, rfl, teardowns_fail ..⟩
  | reenter | enter | adopt | yieldToExit | yieldToPoll | closeBegin | endBegin | dropBegin
  | finishBegin | start | pollSleep | pollFree | wake | giveUp =>
    exact ⟨rfl, rfl, teardowns_goOn ..⟩
  | joinBegin => exact ⟨rfl, rfl, teardowns_goOn lock ..⟩
  | park => exact ⟨rfl, rfl, rfl⟩
  | _ => exact ⟨rfl, rfl, teardowns_answer ..⟩

theorem endStage_of_live {session : Session} (hsession : self.session = some session)
    (hphase : session.phase ≠ .terminated) : self.endStage = some .ahead := by
  rw [endStage, hsession, Option.map_some]
  cases hcase : session.phase with
  | terminated => exact absurd hcase hphase
  | running | yielding => rfl

theorem endStage_of_ended {session : Session} (hsession : self.session = some session)
    (hphase : session.phase = .terminated) (hpoint : self.activity.followsGiveUp = false) :
    self.endStage = some .complete := by
  rw [endStage, hsession, Option.map_some, hphase]
  cases hactivity : self.activity with
  | busy call point =>
    rw [hactivity] at hpoint
    cases point with
    | disposing | tearingDown | marking => cases hpoint
    | _ => rfl
  | idle | finished => rfl

theorem endStage_of_kept {after : ThreadState σ} (hsession : after.session = self.session)
    (hbefore : self.activity.followsGiveUp = false)
    (hafter : after.activity.followsGiveUp = false) : after.endStage = self.endStage := by
  cases hsome : self.session with
  | none =>
    rw [hsome] at hsession
    rw [endStage, endStage, hsession, hsome]
    rfl
  | some session =>
    rw [hsome] at hsession
    by_cases hphase : session.phase = .terminated
    · rw [endStage_of_ended hsession hphase hafter, endStage_of_ended hsome hphase hbefore]
    · rw [endStage_of_live hsession hphase, endStage_of_live hsome hphase]

theorem followsGiveUp_conclude (lock : Lock σ) (self : ThreadState σ) (call : Call σ) :
    (conclude lock self call).self.activity.followsGiveUp = false := by
  unfold conclude
  split <;> rfl

theorem followsGiveUp_fail (lock : Lock σ) (self : ThreadState σ) (call : Call σ) (panic : Panic)
    (entries : List Entry) :
    (fail lock self call panic entries).self.activity.followsGiveUp = false := by
  unfold fail
  split <;> rfl

theorem followsGiveUp_check (me : Thread) (lock : Lock σ) (self : ThreadState σ) (call : Call σ)
    (entries : List Entry) :
    (check me lock self call entries).self.activity.followsGiveUp = false := by
  unfold check
  split <;> rfl

/-- Before the lock is given up for good, the stage can only be set by an adoption. -/
theorem Rule.endStage_kept (rule : Rule build now me lock self call? effect)
    (hsound : self.IsSound) (hpoint : self.activity.followsGiveUp = false) :
    effect.self.endStage = self.endStage ∨ effect.self.session = none ∨
      lock.worker = none ∧ effect.self.endStage = some .ahead := by
  cases rule with
  | dispose hbusy | disposeNone hbusy | tearDown hbusy | tearDownFailed hbusy | mark hbusy =>
    rw [hbusy] at hpoint
    cases hpoint
  | adoptWon _ _ hworker => exact .inr (.inr ⟨hworker, rfl⟩)
  | openNested _ hsession hphase | openWindow _ hsession hphase =>
    left
    rw [endStage_of_live hsession (by rw [hphase]; nofun)]
    rfl
  | closeRunning | recheck | retake =>
    exact .inl (endStage_of_kept (session_check ..) hpoint (followsGiveUp_check ..))
  | close hbusy =>
    left
    obtain ⟨_, hsession⟩ := hsound.place _ _ hbusy
    rw [endStage_of_live hsession nofun]
    exact endStage_of_live (session_check ..) nofun
  | giveUp hbusy =>
    left
    obtain ⟨_, session, hsession, hphase⟩ := hsound.place _ _ hbusy
    rw [endStage_of_live hsession hphase]
    rfl
  | @giveUpNested call session hbusy hsession =>
    obtain ⟨_, other, hother, hphase⟩ := hsound.place _ _ hbusy
    obtain rfl : session = other := Option.some_inj.mp (hsession.symm.trans hother)
    obtain hkept | hnone := session_fail _ _ _ _ _
    · left
      rw [endStage_of_live hsession hphase]
      exact endStage_of_live hkept hphase
    · exact .inr (.inl hnone)
  | dropEnded | finishEnded =>
    obtain hkept | hnone := session_conclude _ _ _
    · exact .inl (endStage_of_kept hkept hpoint (followsGiveUp_conclude ..))
    · exact .inr (.inl hnone)
  | startLate | adoptLost | obtainUnmatched =>
    obtain hkept | hnone := session_fail _ _ _ _ _
    · exact .inl (endStage_of_kept hkept hpoint (followsGiveUp_fail ..))
    · exact .inr (.inl hnone)
  | park => exact .inl rfl
  | _ => exact .inl (endStage_of_kept rfl hpoint rfl)

variable {installed : Option Teardown} {entered : List Teardown}

theorem endStage_conclude {stage : EndStage} {session : Session}
    (hsession : self.session = some session) (hphase : session.phase = .terminated)
    (lock : Lock σ) (call : Call σ) (h : (conclude lock self call).self.endStage = some stage) :
    stage = .complete := by
  obtain hkept | hnone := session_conclude lock self call
  · rw [endStage_of_ended (hkept.trans hsession) hphase (followsGiveUp_conclude ..)] at h
    exact (Option.some_inj.mp h).symm
  · rw [endStage, hnone] at h
    cases h

theorem endStage_fail {stage : EndStage} {session : Session}
    (hsession : self.session = some session) (hphase : session.phase = .terminated)
    (lock : Lock σ) (call : Call σ) (panic : Panic) (entries : List Entry)
    (h : (fail lock self call panic entries).self.endStage = some stage) : stage = .complete := by
  obtain hkept | hnone := session_fail lock self call entries panic
  · rw [endStage_of_ended (hkept.trans hsession) hphase (followsGiveUp_fail ..)] at h
    exact (Option.some_inj.mp h).symm
  · rw [endStage, hnone] at h
    cases h

/-- The end of a session that a thread still has is as far as its stage tells. -/
theorem agrees_of_endStage (stage : EndStage) {session : Session}
    (hsession : self.session = some session) (hstage : self.endStage = some stage)
    (h : Agrees installed lock entered stage) :
    (∀ other, self.endStage = some other → Agrees installed lock entered other) ∧
      (self.session = none → Agrees installed lock entered .complete) := by
  constructor
  · intro other hother
    obtain rfl : stage = other := Option.some_inj.mp (hstage.symm.trans hother)
    exact h
  · intro hgone
    cases hsession.symm.trans hgone

/-- A thread that has given up the lock for good goes through the stages in order, and when its
session is answered or gone the end is over. -/
theorem Rule.agrees_of_followsGiveUp (rule : Rule build now me lock self call? effect)
    (hsound : self.IsSound) (hpoint : self.activity.followsGiveUp = true)
    (h : ∀ stage, self.endStage = some stage → Agrees installed lock entered stage) :
    (∀ stage, effect.self.endStage = some stage →
      Agrees installed effect.lock (entered ++ effect.teardowns) stage) ∧
    (effect.self.session = none →
      Agrees installed effect.lock (entered ++ effect.teardowns) .complete) := by
  cases rule with
  | @dispose _ teardown hbusy hteardown =>
    obtain ⟨_, hsession⟩ := hsound.place _ _ hbusy
    obtain ⟨hinstalled, hnone⟩ := h .ahead (by rw [endStage, hsession, hbusy]; rfl)
    refine agrees_of_endStage (.takenOut teardown) (by exact hsession) ?_ ?_
    · rw [self_goOn, endStage, hsession]
      rfl
    · rw [hnone, teardowns_goOn]
      exact ⟨hinstalled.symm.trans hteardown, rfl⟩
  | disposeNone hbusy hteardown =>
    obtain ⟨_, hsession⟩ := hsound.place _ _ hbusy
    obtain ⟨hinstalled, hnone⟩ := h .ahead (by rw [endStage, hsession, hbusy]; rfl)
    refine agrees_of_endStage .entered (by exact hsession) ?_ ?_
    · rw [self_goOn, endStage, hsession]
      rfl
    · rw [Agrees, hnone, teardowns_goOn, ← hinstalled, hteardown]
      rfl
  | @tearDown call teardown hbusy =>
    obtain ⟨_, hsession⟩ := hsound.place _ _ hbusy
    obtain ⟨hinstalled, hnone⟩ := h (.takenOut teardown) (by rw [endStage, hsession, hbusy]; rfl)
    refine agrees_of_endStage .entered (by exact hsession) ?_ ?_
    · change ({ self with activity := .busy call .marking } : ThreadState σ).endStage = _
      rw [endStage, hsession]
      rfl
    · rw [Agrees, hnone, hinstalled, Effect.teardowns_tornDown]
      exact congrArg (teardown :: ·) (Event.filterMap_tornDown?_entries _)
  | @tearDownFailed call teardown panic hbusy hpanic =>
    obtain ⟨_, hsession⟩ := hsound.place _ _ hbusy
    obtain ⟨hinstalled, hnone⟩ := h (.takenOut teardown) (by rw [endStage, hsession, hbusy]; rfl)
    obtain ⟨text, rfl⟩ := teardown.exists_fail_of_panic hpanic
    have hcomplete (after : Lock σ) {more : List Teardown} (hmore : more = []) :
        Agrees installed after (entered ++ .fail text :: more) .complete := by
      refine ⟨?_, fun hnofail ↦ absurd hinstalled (hnofail text)⟩
      rw [hnone, hinstalled, hmore]
      rfl
    rw [Effect.teardowns_tornDown]
    refine ⟨fun stage hstage ↦ ?_, fun _ ↦ hcomplete _ (teardowns_fail ..)⟩
    rw [endStage_fail hsession rfl _ _ _ _ hstage]
    exact hcomplete _ (teardowns_fail ..)
  | mark hbusy =>
    obtain ⟨_, hsession⟩ := hsound.place _ _ hbusy
    have hentered := h .entered (by rw [endStage, hsession, hbusy]; rfl)
    have hcomplete :
        Agrees installed { lock with terminated := lock.terminated.set } entered .complete :=
      ⟨hentered, fun _ ↦ rfl⟩
    rw [lock_conclude, teardowns_conclude, List.append_nil]
    refine ⟨fun stage hstage ↦ ?_, fun _ ↦ hcomplete⟩
    rw [endStage_conclude hsession rfl _ _ hstage]
    exact hcomplete
  | @park call point hbusy hwants =>
    rw [hbusy] at hpoint
    cases point with
    | disposing | tearingDown | marking => cases hwants
    | _ => cases hpoint
  | _ hstands =>
    rw [hstands] at hpoint
    cases hpoint

/-- What was entered agrees with the stage of a thread's end after each of its steps. -/
theorem Rule.agrees (rule : Rule build now me lock self call? effect) (hfits : self.Fits lock me)
    (hworker : lock.worker = none → Agrees installed lock entered .ahead)
    (h : ∀ stage, self.endStage = some stage → Agrees installed lock entered stage)
    {stage : EndStage} (hstage : effect.self.endStage = some stage) :
    Agrees installed effect.lock (entered ++ effect.teardowns) stage := by
  cases hpoint : self.activity.followsGiveUp with
  | true => exact (rule.agrees_of_followsGiveUp hfits.sound hpoint h).1 stage hstage
  | false =>
    obtain ⟨hteardown, hterminated, hnone⟩ := rule.end_frame hpoint
    rw [hnone, List.append_nil]
    refine Agrees.congr ?_ hteardown hterminated
    obtain hkept | hgone | ⟨hunadopted, hahead⟩ := rule.endStage_kept hfits.sound hpoint
    · exact h stage (hkept.symm.trans hstage)
    · rw [endStage, hgone] at hstage
      cases hstage
    · rw [hahead, Option.some_inj] at hstage
      rw [← hstage]
      exact hworker hunadopted

/-- A thread that has given up the lock for good still has its session. -/
theorem IsSound.ended_of_followsGiveUp (h : self.IsSound)
    (hpoint : self.activity.followsGiveUp = true) :
    self.session = some { phase := .terminated, holds := false } := by
  cases hactivity : self.activity with
  | idle | finished =>
    rw [hactivity] at hpoint
    cases hpoint
  | busy call point =>
    have hplace := h.place _ _ hactivity
    rw [hactivity] at hpoint
    cases point with
    | disposing | tearingDown | marking => exact hplace.2
    | _ => cases hpoint

theorem IsSound.followsGiveUp_of_none (h : self.IsSound) (hsession : self.session = none) :
    self.activity.followsGiveUp = false := by
  apply Bool.eq_false_iff.mpr
  intro hpoint
  have hsome := h.ended_of_followsGiveUp hpoint
  rw [hsession] at hsome
  cases hsome

theorem Rule.end_frame_of_none (rule : Rule build now me lock self call? effect)
    (hsound : self.IsSound) (hsession : self.session = none) :
    effect.lock.teardown = lock.teardown ∧ effect.lock.terminated = lock.terminated ∧
      effect.teardowns = [] :=
  rule.end_frame (hsound.followsGiveUp_of_none hsession)

/-- Where there is a worker, no thread gets a session. -/
theorem Rule.session_eq_none (rule : Rule build now me lock self call? effect)
    (hsound : self.IsSound) (hworker : lock.worker ≠ none) (hsession : self.session = none) :
    effect.self.session = none := by
  obtain hkept | hnone | ⟨hunadopted, _⟩ :=
    rule.endStage_kept hsound (hsound.followsGiveUp_of_none hsession)
  · refine Option.map_eq_none_iff.mp (hkept.trans ?_)
    rw [endStage, hsession]
    rfl
  · exact hnone
  · exact absurd hunadopted hworker

/-- A step that drops a session leaves its end over or was stopped by guards of the thread. -/
theorem Rule.agrees_of_dropped (rule : Rule build now me lock self call? effect)
    (hfits : self.Fits lock me)
    (h : ∀ stage, self.endStage = some stage → Agrees installed lock entered stage)
    (hsession : self.session.isSome = true) (hgone : effect.self.session = none) :
    (Agrees installed effect.lock (entered ++ effect.teardowns) .complete ∧
        ∃ session, self.session = some session ∧ session.phase = .terminated) ∨
      build = .checked ∧ 0 < self.guards ∧ effect.lock.keepAlive.isSet = false ∧
        effect.events = [.answered .dropSession (.panicked .nestedExit)] := by
  cases hpoint : self.activity.followsGiveUp with
  | true =>
    have hended := hfits.sound.ended_of_followsGiveUp hpoint
    exact .inl ⟨(rule.agrees_of_followsGiveUp hfits.sound hpoint h).2 hgone, _, hended, rfl⟩
  | false =>
    obtain ⟨hteardown, hterminated, hnone⟩ := rule.end_frame hpoint
    rw [hnone, List.append_nil]
    have hlive : self.session ≠ none := by
      intro heq
      rw [heq] at hsession
      cases hsession
    cases rule with
    | dropEnded _ _ _ hsome hphase =>
      have hcomplete := h .complete (endStage_of_ended hsome hphase hpoint)
      exact .inl ⟨hcomplete.congr hteardown hterminated, _, hsome, hphase⟩
    | finishEnded _ _ hended =>
      obtain ⟨session, hsome⟩ := Option.isSome_iff_exists.mp hsession
      have hphase := hended session hsome
      have hcomplete := h .complete (endStage_of_ended hsome hphase hpoint)
      exact .inl ⟨hcomplete.congr hteardown hterminated, _, hsome, hphase⟩
    | @giveUpNested call session hbusy hsome hchecked hcall hheld =>
      have hdepth := hfits.depth_giveBackIf hsome (by rw [hbusy]; rfl)
      have hguards : 0 < self.guards := by
        rw [← hdepth]
        exact of_decide_eq_true hheld
      cases call with
      | dropSession => exact .inr ⟨hchecked, hguards, rfl, rfl⟩
      | finish =>
        -- A thread that finishes has released its guards before.
        have hzero := hfits.sound.bounds _ _ hbusy rfl
        omega
      | start => cases (hfits.sound.place _ _ hbusy).1
      | _ => cases hgone
    | dispose hbusy | disposeNone hbusy | tearDown hbusy | tearDownFailed hbusy | mark hbusy =>
      rw [hbusy] at hpoint
      cases hpoint
    | startLate hbusy | adoptLost hbusy => exact absurd (hfits.sound.place _ _ hbusy).2 hlive
    | @obtainUnmatched call _ hbusy =>
      obtain rfl : call = .acquire := hfits.sound.place _ _ hbusy
      exact absurd hgone hlive
    | closeRunning | recheck | retake => exact absurd ((session_check ..).symm.trans hgone) hlive
    | close =>
      have hsome := (session_check ..).symm.trans hgone
      cases hsome
    | openNested | openWindow | adoptWon | giveUp => cases hgone
    | _ => exact absurd hgone hlive

/-- A session has ended before or the step lowers the signal. -/
theorem Rule.ended_or_lowered (rule : Rule build now me lock self call? effect) {session : Session}
    (hsession : effect.self.session = some session) (hphase : session.phase = .terminated) :
    (∃ earlier, self.session = some earlier ∧ earlier.phase = .terminated) ∨
      effect.lock.keepAlive.isSet = false := by
  cases rule with
  | giveUp => exact .inr rfl
  | giveUpNested =>
    rw [lock_fail]
    exact .inr rfl
  | adoptWon | openNested | openWindow =>
    cases hsession
    cases hphase
  | close =>
    rw [session_check] at hsession
    cases hsession
    cases hphase
  | closeRunning | recheck | retake =>
    rw [session_check] at hsession
    exact .inl ⟨_, hsession, hphase⟩
  | dropEnded | finishEnded | mark =>
    obtain hkept | hnone := session_conclude _ _ _
    · rw [hkept] at hsession
      exact .inl ⟨_, hsession, hphase⟩
    · rw [hnone] at hsession
      cases hsession
  | startLate | adoptLost | obtainUnmatched | tearDownFailed =>
    obtain hkept | hnone := session_fail _ _ _ _ _
    · rw [hkept] at hsession
      exact .inl ⟨_, hsession, hphase⟩
    · rw [hnone] at hsession
      cases hsession
  | _ => exact .inl ⟨_, hsession, hphase⟩

end

end ThreadState

section

variable {build : Build} {start world next : World σ} {turns : List (Turn σ)} {me : Thread}
  {session : Session} {move : Move σ} {events : List (Event σ)}

/-- A session that has ended has lowered the signal. -/
theorem Reachable.lowered_of_ended (h : Reachable build world)
    (hsession : (world.thread me).session = some session) (hphase : session.phase = .terminated) :
    world.lock.keepAlive.isSet = false := by
  refine h.forall_threads
    (P := fun lock _ self ↦ ∀ session, self.session = some session →
      session.phase = .terminated → lock.keepAlive.isSet = false)
    ?_ ?_ ?_ ?_ ?_ ?_ me session hsession hphase
  · intro lock name _ session hsome
    cases hsome
  · intro lock name title _ session hsome
    cases hsome
  · intro lock name title _ session hsome
    cases hsome
  · intro lock name self handles _ ih
    exact ih
  · intro now lock name self call? effect rule ih session hsome hended
    obtain ⟨earlier, hearlier, hbefore⟩ | hlowered := rule.ended_or_lowered hsome hended
    · exact rule.advances.keepAlive (ih earlier hearlier hbefore)
    · exact hlowered
  · intro now lock name self call? effect other state rule _ ih session hsome hended
    exact rule.advances.keepAlive (ih session hsome hended)

variable {installed : Option Teardown} {entered : List Teardown}

/-- What was entered agrees with the stage of the session's end, and as long as there is no worker
nothing was. -/
structure World.EndsWell (world : World σ) (installed : Option Teardown)
    (entered : List Teardown) : Prop where
  unadopted : world.lock.worker = none → Agrees installed world.lock entered .ahead
  threads : ∀ name stage, (world.thread name).endStage = some stage →
    Agrees installed world.lock entered stage

/-- There is one session at a time, and its thread is the worker. -/
theorem Reachable.session_eq_none (h : Reachable build world) {other : Thread}
    (hworker : world.lock.worker = some me) (hne : other ≠ me) :
    (world.thread other).session = none := by
  cases hsession : (world.thread other).session with
  | none => rfl
  | some session =>
    have hother := (h.fits other).worker (by rw [hsession]; rfl)
    rw [hworker, Option.some_inj] at hother
    exact absurd hother.symm hne

theorem World.Change.endsWell (change : World.Change build world move next events)
    (h : Reachable build world) (hwell : world.EndsWell installed entered) :
    next.EndsWell installed (entered ++ events.filterMap Event.tornDown?) := by
  cases change with
  | enter name title =>
    rw [List.filterMap_nil, List.append_nil]
    refine ⟨hwell.unadopted, fun other stage hstage ↦ ?_⟩
    rw [World.thread_enlist] at hstage
    split at hstage
    · cases hstage
    · exact hwell.threads other stage hstage
  | pass nanos =>
    rw [List.filterMap_nil, List.append_nil]
    exact ⟨hwell.unadopted, hwell.threads⟩
  | spawnRefused name child =>
    rw [Event.filterMap_tornDown?_answered, List.append_nil]
    exact hwell
  | spawn name child =>
    rw [Event.filterMap_tornDown?_answered, List.append_nil]
    refine ⟨hwell.unadopted, fun other stage hstage ↦ ?_⟩
    simp only [World.thread, Roster.get_set] at hstage
    split at hstage
    · exact hwell.threads name stage hstage
    · split at hstage
      · cases hstage
      · exact hwell.threads other stage hstage
  | own name call? effect _ rule =>
    have hfits := h.fits name
    refine ⟨fun hworker ↦ ?_, fun other stage hstage ↦ ?_⟩
    · have hbefore : world.lock.worker = none := by
        cases hsome : world.lock.worker with
        | none => rfl
        | some worker => cases (rule.advances.worker _ hsome).symm.trans hworker
      obtain ⟨hteardown, hterminated, hnone⟩ :=
        rule.end_frame_of_none hfits.sound (hfits.session_eq_none hbefore)
      rw [← Effect.teardowns, hnone, List.append_nil]
      exact (hwell.unadopted hbefore).congr hteardown hterminated
    · rw [World.thread_after] at hstage
      split at hstage
      · exact rule.agrees hfits hwell.unadopted (hwell.threads name) hstage
      · rename_i hne
        obtain ⟨session, hsession, _⟩ := Option.map_eq_some_iff.mp hstage
        have hworker := (h.fits other).worker (by rw [hsession]; rfl)
        obtain ⟨hteardown, hterminated, hnone⟩ :=
          rule.end_frame_of_none hfits.sound (h.session_eq_none hworker (Ne.symm hne))
        rw [← Effect.teardowns, hnone, List.append_nil]
        exact (hwell.threads other stage hstage).congr hteardown hterminated

theorem enteredIn_append (turns others : List (Turn σ)) :
    enteredIn (turns ++ others) = enteredIn turns ++ enteredIn others :=
  List.flatMap_append

theorem enteredIn_singleton (turn : Turn σ) :
    enteredIn [turn] = turn.events.filterMap Event.tornDown? :=
  List.flatMap_singleton ..

theorem Run.endsWell (run : Run build start turns world) (hnew : start.IsNew) :
    world.EndsWell start.lock.teardown (enteredIn turns) := by
  induction run with
  | nil =>
    refine ⟨fun _ ↦ ⟨rfl, rfl⟩, fun name stage hstage ↦ ?_⟩
    rw [World.thread_of_new hnew] at hstage
    cases hstage
  | snoc run hmove ih =>
    rw [enteredIn_append, enteredIn_singleton]
    exact (World.change_of_move? hmove).endsWell (run.reachable hnew) ih

/-- Once the worker has no session any more, nobody enters a teardown or gets a session. -/
theorem World.Change.complete_kept (change : World.Change build world move next events)
    (h : Reachable build world) (hworker : world.lock.worker = some me)
    (hgone : (world.thread me).session = none) :
    (next.thread me).session = none ∧
      (Agrees installed world.lock entered .complete →
        Agrees installed next.lock (entered ++ events.filterMap Event.tornDown?) .complete) := by
  cases change with
  | enter name title =>
    rw [List.filterMap_nil, List.append_nil, World.thread_enlist]
    refine ⟨?_, id⟩
    split
    · rfl
    · exact hgone
  | pass nanos =>
    rw [List.filterMap_nil, List.append_nil]
    exact ⟨hgone, id⟩
  | spawnRefused name child =>
    rw [Event.filterMap_tornDown?_answered, List.append_nil]
    exact ⟨hgone, id⟩
  | spawn name child =>
    rw [Event.filterMap_tornDown?_answered, List.append_nil]
    refine ⟨?_, id⟩
    simp only [World.thread, Roster.get_set]
    split
    · subst me
      exact hgone
    · split
      · rfl
      · exact hgone
  | own name call? effect _ rule =>
    have hfits := h.fits name
    have hsession : (world.thread name).session = none := by
      by_cases hname : name = me
      · rw [hname, hgone]
      · exact h.session_eq_none hworker hname
    obtain ⟨hteardown, hterminated, hnone⟩ := rule.end_frame_of_none hfits.sound hsession
    rw [← Effect.teardowns, hnone, List.append_nil, World.thread_after]
    refine ⟨?_, fun hcomplete ↦ hcomplete.congr hteardown hterminated⟩
    split
    · have hadopted : world.lock.worker ≠ none := by
        rw [hworker]
        exact Option.some_ne_none me
      exact rule.session_eq_none hfits.sound hadopted hsession
    · exact hgone

theorem Run.complete_kept (run : Run build start turns world) (h : Reachable build start)
    (hworker : start.lock.worker = some me) (hgone : (start.thread me).session = none) :
    (world.thread me).session = none ∧
      (Agrees installed start.lock entered .complete →
        Agrees installed world.lock (entered ++ enteredIn turns) .complete) := by
  induction run with
  | nil => exact ⟨hgone, fun hcomplete ↦ by rwa [enteredIn, List.flatMap_nil, List.append_nil]⟩
  | snoc run hmove ih =>
    obtain ⟨hnone, hcomplete⟩ := ih
    have hrecorded := run.advances.worker me hworker
    obtain ⟨hafter, hmore⟩ :=
      (World.change_of_move? hmove).complete_kept (h.run run) hrecorded hnone
    refine ⟨hafter, fun hstart ↦ ?_⟩
    rw [enteredIn_append, enteredIn_singleton, ← List.append_assoc]
    exact hmore (hcomplete hstart)

/-- A call that drops the session comes to a leave of it. -/
theorem ThreadState.exists_leave (build : Build) (now : Nat) (me : Thread) (lock : Lock σ)
    {self : ThreadState σ} {call : Call σ} (hdrops : call.dropsSession = true)
    (hpermits : self.permits call = true) :
    ∃ after state, self.invoke? build now me lock call = some (leave after state call) ∧
      state.session = self.session ∧ state.guards ≤ self.guards := by
  cases call with
  | dropSession | unwindSession =>
    refine ⟨lock, self, ?_, rfl, Nat.le_refl _⟩
    rw [invoke?, hpermits]
    rfl
  | finish =>
    refine ⟨{ lock with mutex := lock.mutex.giveBackMany me self.guards },
      { self with guards := 0 }, ?_, rfl, Nat.zero_le _⟩
    rw [invoke?, hpermits]
    rfl
  | _ => cases hdrops

/-- Dropping a session waits for nobody, as no `Teardown` does; only a teardown that panics while
its thread unwinds already keeps it from coming to an end. -/
theorem World.answersCall_drop (h : Reachable build world)
    (hsession : (world.thread me).session = some session) {call : Call σ}
    (hdrops : call.dropsSession = true) (hpermits : (world.thread me).permits call = true)
    (hharmless : call.isUnwinding = true → ∀ text, world.lock.teardown ≠ some (.fail text)) :
    AnswersCall build me false (World.SessionGone me) 4 world call := by
  obtain ⟨after, state, hinvoke, hkept, hguards⟩ :=
    ThreadState.exists_leave build world.clock me world.lock hdrops hpermits
  have hstate : state.session = some session := hkept.trans hsession
  have hspawn : call.isSpawn = false := by
    cases call with
    | spawn => cases hdrops
    | _ => rfl
  have hknown := ThreadState.ne_default_of_session hsession
  have hmove := World.move?_of_invoke? h hknown hinvoke hspawn
  by_cases hphase : session.phase = .terminated
  · have hended : ∀ other, state.session = some other → other.phase = .terminated := by
      intro other hother
      rw [hstate, Option.some_inj] at hother
      rw [← hother, hphase]
    rw [ThreadState.leave_of_ended after state call hended] at hmove
    refine ⟨_, _, hmove, .inl ⟨_, ThreadState.answers_conclude .., ?_⟩⟩
    rw [World.SessionGone, World.thread_after_self]
    exact ThreadState.session_conclude_of_drops _ _ hdrops
  · rw [ThreadState.leave_of_live after call hstate hphase] at hmove
    have hending : World.IsEnding build me call False world :=
      ⟨h, fun hclean ↦ hclean.elim, fun hcase ↦ hharmless (hcase.resolve_left id)⟩
    refine ⟨_, _, hmove, .inr ⟨ThreadState.answers_goOn .., ?_⟩⟩
    have hanswers := World.answersWithin_lowering false (World.activity_after_busy _ _ rfl)
      (hending.step hmove hguards)
    exact hanswers.imp fun next reply hended ↦ hended.2 hdrops

/-- The move that drops a session leaves the signal lowered and the session's end over, unless it
panicked because the thread still had guards. -/
theorem World.Change.end_of_dropped (change : World.Change build world move next events)
    (h : Reachable build world) (hwell : world.EndsWell installed entered)
    (hsession : (world.thread me).session = some session)
    (hgone : (next.thread me).session = none) :
    next.lock.keepAlive.isSet = false ∧
      (build = .checked ∧ 0 < (world.thread me).guards ∧
          events = [.answered .dropSession (.panicked .nestedExit)] ∨
        Agrees installed next.lock (entered ++ events.filterMap Event.tornDown?) .complete) := by
  cases change.changeOf (ThreadState.ne_default_of_session hsession) with
  | others _ hself | spawns _ _ hself =>
    rw [hself, hsession] at hgone
    cases hgone
  | own call? effect rule =>
    rw [World.thread_after_self] at hgone
    have hlive : (world.thread me).session.isSome = true := by
      rw [hsession]
      rfl
    obtain ⟨hcomplete, earlier, hearlier, hphase⟩ | ⟨hchecked, hguards, hlowered, hevents⟩ :=
      rule.agrees_of_dropped (h.fits me) (hwell.threads me) hlive hgone
    · have hlowered := h.lowered_of_ended hearlier hphase
      exact ⟨rule.advances.keepAlive hlowered, .inr hcomplete⟩
    · exact ⟨hlowered, .inl ⟨hchecked, hguards, hevents⟩⟩

/-- The session was dropped by a call that panicked because its thread still had guards. -/
def Turn.StoppedByGuards (build : Build) (me : Thread) (turn : Turn σ) : Prop :=
  build = .checked ∧ 0 < (turn.before.thread me).guards ∧
    turn.events = [.answered .dropSession (.panicked .nestedExit)]

/-- From when a live session has been dropped the signal is lowered and the session's level given
up. Unless guards stopped the drop, the run has entered the teardown that was installed exactly
once, and if the teardown does not panic the end is announced. -/
theorem dropped_session_has_ended {turn : Turn σ} {more : List (Turn σ)} {later : World σ}
    (hnew : start.IsNew) (run : Run build start turns turn.before)
    (hsession : (turn.before.thread me).session = some session) (hmove : turn.IsMove build)
    (hgone : (turn.after.thread me).session = none) (hmore : Run build turn.after more later) :
    later.lock.keepAlive.isSet = false ∧
      later.lock.mutex.depth me = (later.thread me).guards ∧
      (turn.StoppedByGuards build me ∨
        enteredIn (turns ++ turn :: more) = start.lock.teardown.toList ∧
          ((∀ text, start.lock.teardown ≠ some (.fail text)) →
            later.lock.terminated.isSet = true)) := by
  have hreach : Reachable build turn.before := run.reachable hnew
  have change := World.change_of_move? hmove
  obtain ⟨hlowered, hend⟩ := change.end_of_dropped hreach (run.endsWell hnew) hsession hgone
  have hworker : turn.after.lock.worker = some me :=
    change.advances.worker me ((hreach.fits me).worker (by rw [hsession]; rfl))
  have hafter : Reachable build turn.after := hreach.move hmove
  -- Nothing that happens later can undo the end, as nobody else ever becomes the worker.
  obtain ⟨hnone, hcomplete⟩ := hmore.complete_kept hafter hworker hgone
  refine ⟨hmore.advances.keepAlive hlowered, ?_, ?_⟩
  · have hfits := (hafter.run hmore).fits me
    exact hfits.depth.trans
      (ThreadState.levels_of_holdsNoLevel (ThreadState.holdsNoLevel_of_none hnone))
  · obtain hstopped | hagrees := hend
    · exact .inl hstopped
    · right
      have hturns : enteredIn (turns ++ turn :: more) =
          enteredIn turns ++ turn.events.filterMap Event.tornDown? ++ enteredIn more := by
        calc
          _ = enteredIn turns ++ enteredIn (turn :: more) := enteredIn_append ..
          _ = enteredIn turns ++ (turn.events.filterMap Event.tornDown? ++ enteredIn more) := rfl
          _ = _ := (List.append_assoc ..).symm
      rw [hturns]
      exact hcomplete hagrees

/-- A worker drops its session, and the teardown is entered before the end is announced. -/
theorem dropped_session_entered_note :
    ∃ (start : World Unit) (turns : List (Turn Unit)) (turn : Turn Unit), start.IsNew ∧
      Run .checked start turns turn.before ∧ turn.IsMove .checked ∧
      (turn.before.thread "worker").session.isSome = true ∧
      (turn.after.thread "worker").session = none ∧
      enteredIn (turns ++ [turn]) = [.note "bye"] ∧
      turn.after.lock.terminated.isSet = true := by
  let start : World Unit := { lock := (Lock.standard .checked ()).withTeardown (.note "bye") }
  let moves : List (Move Unit) :=
    [.call "worker" .adopt, .step "worker", .call "worker" .dropSession, .step "worker",
      .step "worker", .step "worker"]
  have hnew : start.IsNew := ⟨.withTeardown _ (.standard .checked ()), rfl⟩
  have hplay : ∃ turns world next, start.play? .checked moves = some (turns, world) ∧
      world.move? .checked (.step "worker") = some (next, [.answered .dropSession .dropped]) ∧
      (world.thread "worker").session = some { phase := .terminated, holds := false } ∧
      (next.thread "worker").session = none := ⟨_, _, _, rfl, rfl, rfl, rfl⟩
  obtain ⟨turns, world, next, hturns, hmove, hsession, hgone⟩ := hplay
  let turn : Turn Unit := ⟨world, .step "worker", next, [.answered .dropSession .dropped]⟩
  have hrun : Run .checked start turns turn.before := run_of_play? hturns
  have hended := dropped_session_has_ended hnew hrun hsession hmove hgone .nil
  obtain ⟨_, _, ⟨_, _, hevents⟩ | ⟨hentered, hterminated⟩⟩ := hended
  · cases hevents
  · have hlive : (turn.before.thread "worker").session.isSome = true := by
      rw [hsession]
      rfl
    exact ⟨start, turns, turn, hnew, hrun, hmove, hlive, hgone, hentered,
      hterminated fun _ ↦ nofun⟩

/-- A run in which the thread's session is dropped and its end not announced, with what it
entered. -/
def DropsUnannounced (build : Build) (me : Thread) (start : World σ) (entered : List Teardown) :
    Prop :=
  start.IsNew ∧ ∃ turns turn, Run build start turns turn.before ∧ turn.IsMove build ∧
    (turn.before.thread me).session.isSome = true ∧ (turn.after.thread me).session = none ∧
    enteredIn (turns ++ [turn]) = entered ∧ turn.after.lock.terminated.isSet = false

theorem dropsUnannounced_of_play? (moves : List (Move σ)) (hnew : start.IsNew)
    (hplay : ∃ turns world next events, start.play? build moves = some (turns, world) ∧
      world.move? build (.step me) = some (next, events) ∧
      (world.thread me).session.isSome = true ∧ (next.thread me).session = none ∧
      enteredIn turns ++ events.filterMap Event.tornDown? = entered ∧
      next.lock.terminated.isSet = false) : DropsUnannounced build me start entered := by
  obtain ⟨turns, world, next, events, hturns, hmove, hsession, hgone, hentered, hunset⟩ := hplay
  refine ⟨hnew, turns, ⟨world, .step me, next, events⟩, run_of_play? hturns, hmove, hsession,
    hgone, ?_, hunset⟩
  rw [enteredIn_append, enteredIn_singleton]
  exact hentered

/-- The end of a dropped session is not always announced: a teardown that panics prevents it, and
guards of the thread prevent even that the teardown is entered. -/
theorem dropped_session_unannounced :
    DropsUnannounced .checked "worker"
      ({ lock := (Lock.standard .checked ()).withTeardown (.fail "no") } : World Unit)
      [.fail "no"] ∧
    DropsUnannounced .checked "worker"
      ({ lock := (Lock.standard .checked ()).withTeardown (.note "bye") } : World Unit) [] := by
  let fails : List (Move Unit) :=
    [.call "worker" .adopt, .step "worker", .call "worker" .dropSession, .step "worker",
      .step "worker"]
  let nests : List (Move Unit) :=
    [.call "worker" .adopt, .step "worker", .call "worker" .tryAcquire,
      .call "worker" .dropSession]
  constructor
  · exact dropsUnannounced_of_play? fails ⟨.withTeardown _ (.standard .checked ()), rfl⟩
      ⟨_, _, _, _, rfl, rfl, rfl, rfl, rfl, rfl⟩
  · exact dropsUnannounced_of_play? nests ⟨.withTeardown _ (.standard .checked ()), rfl⟩
      ⟨_, _, _, _, rfl, rfl, rfl, rfl, rfl, rfl⟩

end

end YieldLock
