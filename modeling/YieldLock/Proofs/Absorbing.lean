import YieldLock.Proofs.Nesting
import YieldLock.Proofs.Phase

/-!
# A session that has ended stays ended

Nothing leads out of the terminated phase. A session that is called after its end
answers in the first step of the call and changes nothing but, if it is dropped,
its own thread. Main statements: `Run.ended_kept`, how the end of a session lasts
along a run, and `terminated_is_absorbing`.
-/

namespace YieldLock

variable {σ : Type}

namespace Call

/-- Calls that a thread makes of its session. -/
def isOfSession : Call σ → Bool
  | yieldNow | openWindow | closeWindow | endSession | dropSession | unwindSession _ => true
  | read .session | write .session _ => true
  | _ => false

/-- What is logged when a session is called that has ended. -/
def complaints : Call σ → List Message
  | yieldNow | closeWindow => [.keptRunning]
  | openWindow => [.windowAfterExit]
  | _ => []

/-- What a session answers that has ended. -/
def answerAfterExit : Call σ → Answer σ
  | openWindow => .opened
  | read _ | write _ _ => .panicked (.notHolding .terminated)
  | dropSession => .dropped
  | unwindSession panic => .panicked panic
  | _ => .flow .exit

theorem isSpawn_of_isOfSession {call : Call σ} (h : call.isOfSession = true) :
    call.isSpawn = false := by
  cases call with
  | spawn => cases h
  | _ => rfl

end Call

namespace ThreadState

/-- A call of a session that has ended is over at once: the thread is idle as before and has the
session unless it was dropped. -/
def afterExit (lock : Lock σ) (self : ThreadState σ) (call : Call σ) : Effect σ where
  lock
  self := { self with session := if call.dropsSession then none else self.session }
  events := call.complaints.map (.entry <| .logged ·) ++ [.answered call call.answerAfterExit]

section

variable {build : Build} {now : Nat} {me : Thread} {lock : Lock σ} {self : ThreadState σ}
  {call? : Option (Call σ)} {call : Call σ} {effect : Effect σ}

theorem idle_of_permits (h : self.permits call = true) : self.activity = .idle := by
  unfold permits at h
  rw [Bool.and_eq_true] at h
  cases hactivity : self.activity with
  | idle => rfl
  | busy | finished =>
    rw [hactivity] at h
    cases h.1

theorem permits_of_invoke? (h : self.invoke? build now me lock call = some effect) :
    self.permits call = true := by
  unfold invoke? at h
  split at h
  · cases h
  · rename_i hpermits
    simpa using hpermits

theorem isSome_of_permits (hcall : call.isOfSession = true) (h : self.permits call = true) :
    self.session.isSome = true := by
  unfold permits at h
  rw [Bool.and_eq_true] at h
  cases call with
  | yieldNow | openWindow | closeWindow | endSession => exact h.2
  | dropSession | unwindSession => exact (Bool.and_eq_true _ _ ▸ h.2).1
  | read access | write access =>
    cases access with
    | session => exact h.2
    | guard => cases hcall
  | _ => cases hcall

theorem invoke?_afterExit (build : Build) (now : Nat) (me : Thread) (lock : Lock σ)
    (hsession : self.session = some { phase := .terminated, holds := false })
    (hcall : call.isOfSession = true) (hpermits : self.permits call = true) :
    self.invoke? build now me lock call = some (self.afterExit lock call) := by
  have hidle := idle_of_permits hpermits
  obtain ⟨title, isSpawned, guards, session, handles, activity⟩ := self
  cases hsession
  cases hidle
  cases call with
  | yieldNow | openWindow | closeWindow | endSession | dropSession | unwindSession =>
    rw [invoke?, hpermits]
    rfl
  | read access | write access =>
    cases access with
    | session =>
      rw [invoke?, hpermits]
      rfl
    | guard => cases hcall
  | _ => cases hcall

/-- A call that could be made of a session that has ended is over. -/
theorem eq_afterExit_of_invoke? (hholds : ∀ session, self.session = some session →
      session = { phase := .terminated, holds := false })
    (hcall : call.isOfSession = true) (h : self.invoke? build now me lock call = some effect) :
    effect = self.afterExit lock call := by
  have hpermits := permits_of_invoke? h
  obtain ⟨session, hsession⟩ := Option.isSome_iff_exists.mp (isSome_of_permits hcall hpermits)
  obtain rfl := hholds session hsession
  rw [invoke?_afterExit build now me lock hsession hcall hpermits] at h
  exact (Option.some_inj.mp h).symm

theorem session_conclude_cases (lock : Lock σ) (self : ThreadState σ) (call : Call σ) :
    (conclude lock self call).self.session = self.session ∨
      (conclude lock self call).self.session = none ∧ call.dropsSession = true := by
  cases call with
  | dropSession | unwindSession | finish => exact .inr ⟨rfl, rfl⟩
  | _ => exact .inl rfl

theorem session_fail_cases (lock : Lock σ) (self : ThreadState σ) (panic : Panic)
    (entries : List Entry) (hcall : call.endsSession = true) :
    (fail lock self call panic entries).self.session = self.session ∨
      (fail lock self call panic entries).self.session = none ∧ call.dropsSession = true := by
  cases call with
  | dropSession | finish => exact .inr ⟨rfl, rfl⟩
  | start => cases hcall
  | _ => exact .inl rfl

/-- Nothing but a drop changes a session that has ended. -/
theorem Rule.ended_kept (rule : Rule build now me lock self call? effect) (hsound : self.IsSound)
    (hsession : self.session = some { phase := .terminated, holds := false }) :
    effect.self.session = some { phase := .terminated, holds := false } ∨
      effect.self.session = none ∧
        ∃ call reply, call.dropsSession = true ∧ .answered call reply ∈ effect.events := by
  cases rule with
  | openNested _ hother hphase | openWindow _ hother hphase =>
    cases hsession.symm.trans hother
    cases hphase
  | closeRunning | retake | recheck => exact .inl ((session_check ..).trans hsession)
  | startLate hbusy | adoptLost hbusy | adoptWon hbusy =>
    cases hsession.symm.trans (hsound.place _ _ hbusy).2
  | close hbusy => cases hsession.symm.trans (hsound.place _ _ hbusy).2
  | giveUpNested hbusy =>
    obtain ⟨_, session, hother, hphase⟩ := hsound.place _ _ hbusy
    cases hsession.symm.trans hother
    exact absurd rfl hphase
  | giveUp => exact .inl rfl
  | @obtainUnmatched call _ hbusy =>
    obtain rfl : call = .acquire := hsound.place _ _ hbusy
    exact .inl hsession
  | dropEnded | finishEnded | mark =>
    obtain hkept | ⟨hgone, hdrops⟩ := session_conclude_cases _ _ _
    · exact .inl (hkept.trans hsession)
    · exact .inr ⟨hgone, _, _, hdrops, answered_conclude ..⟩
  | tearDownFailed hbusy =>
    obtain hkept | ⟨hgone, hdrops⟩ := session_fail_cases _ _ _ _ (hsound.place _ _ hbusy).1
    · exact .inl (hkept.trans hsession)
    · exact .inr ⟨hgone, _, _, hdrops, List.mem_cons_of_mem _ (answered_fail ..)⟩
  | _ => exact .inl hsession

/-- The thread that ends takes its guards with it and leaves the rest of the lock. -/
theorem Rule.finish_afterExit {outcome : Option Panic}
    (rule : Rule build now me lock self (some (.finish outcome)) effect)
    (hsession : self.session = some { phase := .terminated, holds := false }) :
    effect.lock = { lock with mutex := lock.mutex.giveBackMany me self.guards } ∧
      effect.events = [.answered (.finish outcome) .finished] := by
  cases rule with
  | finishBegin _ _ hother hphase =>
    cases hsession.symm.trans hother
    exact absurd rfl hphase
  | finishEnded => exact ⟨rfl, rfl⟩
  | outOfReach _ hother | dropBegin _ hother | dropEnded _ hother =>
    obtain heq | ⟨_, heq⟩ := hother <;> cases heq

end

end ThreadState

section

variable {build : Build} {world next last : World σ} {move : Move σ} {events : List (Event σ)}
  {turns : List (Turn σ)} {me : Thread}

open ThreadState

theorem World.Change.gone_kept (change : World.Change build world move next events)
    (h : Reachable build world) (hworker : world.lock.worker = some me)
    (hgone : (world.thread me).session = none) : (next.thread me).session = none := by
  have hkept : (next.thread me).session = none ∧
      (Agrees none world.lock [] .complete →
        Agrees none next.lock ([] ++ events.filterMap Event.tornDown?) .complete) :=
    change.complete_kept h hworker hgone
  exact hkept.1

/-- The session of a thread has ended, and it is still there unless it was dropped since. -/
def EndedIn (turns : List (Turn σ)) (world : World σ) (me : Thread) : Prop :=
  (world.thread me).session = some { phase := .terminated, holds := false } ∨
    (world.thread me).session = none ∧
      ∃ turn ∈ turns, ∃ call reply, call.dropsSession = true ∧ turn.Answers me call reply

theorem EndedIn.eq_ended (h : EndedIn turns world me) (session : Session)
    (hsession : (world.thread me).session = some session) :
    session = { phase := .terminated, holds := false } := by
  obtain hended | ⟨hgone, _⟩ := h
  · exact Option.some_inj.mp (hsession.symm.trans hended)
  · cases hgone.symm.trans hsession

theorem Reachable.ended_of_phase? (h : Reachable build world)
    (hended : (world.thread me).phase? = some .terminated) :
    (world.thread me).session = some { phase := .terminated, holds := false } := by
  obtain ⟨⟨phase, holds⟩, hsession, rfl⟩ := Option.map_eq_some_iff.mp hended
  have hholds : holds = false := (h.fits me).sound.holds _ hsession (by simp)
  rw [hsession, hholds]

theorem Run.ended_kept (run : Run build world turns last) (h : Reachable build world)
    (hended : (world.thread me).phase? = some .terminated) : EndedIn turns last me := by
  have hstart := h.ended_of_phase? hended
  have hworker := (h.fits me).worker (isSome_of_phase? hended)
  induction run with
  | nil => exact .inl hstart
  | @snoc turns turn run hmove ih =>
    obtain ⟨before, move, after, events⟩ := turn
    have change : World.Change build before move after events := World.change_of_move? hmove
    have hreach := h.run run
    obtain hsession | ⟨hgone, earlier, hmem, hdropped⟩ := ih
    · cases change.changeOf (ne_default_of_session hsession) with
      | others _ hself => exact .inl ((congrArg ThreadState.session hself).trans hsession)
      | own call? effect rule =>
        have hself : (before.after me effect).thread me = effect.self :=
          World.thread_after_self ..
        rw [EndedIn, hself]
        obtain hkept | ⟨hgone, call, reply, hdrops, hanswered⟩ :=
          rule.ended_kept (hreach.fits me).sound hsession
        · exact .inl hkept
        · exact .inr ⟨hgone, _, List.mem_append_right _ (List.mem_singleton_self _), call, reply,
            hdrops, Move.thread?_ofThread me call?, hanswered⟩
      | spawns _ handles hself => exact .inl ((congrArg ThreadState.session hself).trans hsession)
    · have hrecorded := run.advances.worker me hworker
      exact .inr ⟨change.gone_kept hreach hrecorded hgone, earlier, List.mem_append_left _ hmem,
        hdropped⟩

/-- A call of a session that has ended is answered in its first step, with no sleep and no teardown,
and leaves the lock, the other threads and the rest of its own thread as they were. -/
structure World.AnswersAfterExit (before : World σ) (me : Thread) (call : Call σ) (after : World σ)
    (events : List (Event σ)) : Prop where
  events : events = call.complaints.map (.entry <| .logged ·) ++
    [.answered call call.answerAfterExit]
  lock : after.lock = before.lock
  self : after.thread me =
    { before.thread me with
      session := if call.dropsSession then none else (before.thread me).session }
  others : ∀ other, other ≠ me → after.thread other = before.thread other

theorem World.answersAfterExit (before : World σ) (me : Thread) (call : Call σ) :
    before.AnswersAfterExit me call
      (before.after me ((before.thread me).afterExit before.lock call))
      ((before.thread me).afterExit before.lock call).events where
  events := rfl
  lock := rfl
  self := World.thread_after_self ..
  others _ hother := World.thread_after_of_ne before _ hother

/-- The terminated phase is absorbing. Once a session has ended, it keeps its phase and holds no
level until it is dropped, whatever its thread and others do; and every call of it is answered at
once, the calls of a worker's loop with an exit and an access with a panic, and changes nothing of
the lock and of the other threads. So does the end of a thread that was started as a worker, but
that it gives up its guards. -/
theorem terminated_is_absorbing (h : Reachable build world)
    (hended : (world.thread me).phase? = some .terminated) (run : Run build world turns last) :
    EndedIn turns last me ∧
    (∀ turn ∈ turns, ∀ call, turn.move = .call me call → call.isOfSession = true →
      turn.before.AnswersAfterExit me call turn.after turn.events) ∧
    (∀ turn ∈ turns, ∀ outcome, turn.move = .call me (.finish outcome) →
      (turn.before.thread me).session.isSome = true →
      turn.events = [.answered (.finish outcome) .finished] ∧
        turn.after.lock =
          { turn.before.lock with
            mutex := turn.before.lock.mutex.giveBackMany me (turn.before.thread me).guards }) ∧
    (∀ call, call.isOfSession = true → (last.thread me).permits call = true →
      ∃ next events, last.call? build me call = some (next, events) ∧
        last.AnswersAfterExit me call next events) := by
  have hin (turn : Turn σ) (hmem : turn ∈ turns) :
      turn.IsMove build ∧ ∀ session, (turn.before.thread me).session = some session →
        session = { phase := .terminated, holds := false } := by
    obtain ⟨earlier, _, rfl, hbefore, hmove, _⟩ := run.exists_split hmem
    exact ⟨hmove, (hbefore.ended_kept h hended).eq_ended⟩
  refine ⟨run.ended_kept h hended, ?_, ?_, ?_⟩
  · intro turn hmem call hcalls hcall
    obtain ⟨hmove, hsession⟩ := hin turn hmem
    have hmade := hmove.call?_eq hcalls
    rw [World.call?_of_not_spawn _ _ (Call.isSpawn_of_isOfSession hcall)] at hmade
    split at hmade
    · obtain ⟨effect, hinvoke, hturn⟩ := Option.map_eq_some_iff.mp hmade
      obtain rfl := eq_afterExit_of_invoke? hsession hcall hinvoke
      obtain ⟨hafter, hevents⟩ := Prod.mk.inj hturn
      rw [← hafter, ← hevents]
      exact turn.before.answersAfterExit me call
    · cases hmade
  · intro turn hmem outcome hcalls hsome
    obtain ⟨hmove, hsession⟩ := hin turn hmem
    obtain ⟨effect, rule, _, hafter, hevents⟩ :=
      World.exists_rule_of_call? rfl (hmove.call?_eq hcalls)
    obtain ⟨session, hsession'⟩ := Option.isSome_iff_exists.mp hsome
    obtain rfl := hsession session hsession'
    obtain ⟨hlock, hshown⟩ := rule.finish_afterExit hsession'
    rw [hafter, hevents]
    exact ⟨hshown, hlock⟩
  · intro call hcall hpermits
    have hlast := run.ended_kept h hended
    obtain ⟨session, hsession⟩ := Option.isSome_iff_exists.mp (isSome_of_permits hcall hpermits)
    obtain rfl := hlast.eq_ended session hsession
    have hinvoke := invoke?_afterExit build last.clock me last.lock hsession hcall hpermits
    exact ⟨_, _, World.move?_of_invoke? (h.run run) (ne_default_of_session hsession) hinvoke
      (Call.isSpawn_of_isOfSession hcall), last.answersAfterExit me call⟩

set_option synthInstance.maxSize 512 in
/-- While another thread takes the lock, a worker that has ended is told to exit again and again. -/
theorem ended_session_answers_beside_owner :
    ∃ (world last : World Unit) (turns : List (Turn Unit)), Reachable .checked world ∧
      Run .checked world turns last ∧ EndedIn turns last "worker" ∧
      last.lock.mutex.isHeldBy "other" = true ∧
      ∃ turn ∈ turns, turn.move = .call "worker" .closeWindow ∧
        turn.before.AnswersAfterExit "worker" .closeWindow turn.after turn.events := by
  let start : World Unit := { lock := .standard .checked () }
  let ends : List (Move Unit) :=
    [.call "worker" .adopt, .step "worker", .call "worker" .endSession, .step "worker",
      .step "worker", .step "worker"]
  let moves : List (Move Unit) :=
    [.call "worker" .yieldNow, .call "other" .acquire, .call "worker" .openWindow, .step "other",
      .call "worker" .closeWindow, .call "worker" (.read .session), .call "worker" .endSession]
  have hplay : ∃ ended ∈ start.play? .checked ends,
      (ended.2.thread "worker").phase? = some .terminated ∧
      ∃ later ∈ ended.2.play? .checked moves, later.2.lock.mutex.isHeldBy "other" = true ∧
        ∃ turn ∈ later.1, turn.move = .call "worker" .closeWindow := by
    decide +kernel
  obtain ⟨⟨_, world⟩, hended, hphase, ⟨turns, last⟩, hlater, hheld, turn, hmem, hcalls⟩ := hplay
  have hreach : Reachable .checked world :=
    (run_of_play? hended).reachable ⟨.standard .checked (), rfl⟩
  have run : Run .checked world turns last := run_of_play? hlater
  obtain ⟨hkept, hanswers, _⟩ := terminated_is_absorbing hreach hphase run
  exact ⟨world, last, turns, hreach, run, hkept, hheld, turn, hmem, hcalls,
    hanswers turn hmem _ hcalls rfl⟩

end

end YieldLock
