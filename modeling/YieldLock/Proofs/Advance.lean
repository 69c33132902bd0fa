import YieldLock.Proofs.Run

/-!
# What a lock keeps

A lock goes one way only. Its configuration never changes, the signal that
shutdown lowers stays lowered, the worker stays recorded, an announced end stays
announced, and a teardown that was taken out does not come back. Main statements:
`Run.advances`, for the locks at both ends of a run, and
`Run.lowered_of_requested`, a request for shutdown that was answered lasts.
-/

namespace YieldLock

variable {σ : Type}

namespace Lock

/-- What an earlier state of a lock says about every later one. -/
structure Advances (before after : Lock σ) : Prop where
  config : after.config = before.config
  keepAlive : before.keepAlive.isSet = false → after.keepAlive.isSet = false
  terminated : before.terminated.isSet = true → after.terminated.isSet = true
  worker : ∀ name, before.worker = some name → after.worker = some name
  teardown : after.teardown = before.teardown ∨ after.teardown = none

namespace Advances

variable {before middle after : Lock σ}

theorem refl (lock : Lock σ) : lock.Advances lock :=
  ⟨rfl, id, id, fun _ ↦ id, .inl rfl⟩

theorem trans (h : before.Advances middle) (hmore : middle.Advances after) :
    before.Advances after where
  config := hmore.config.trans h.config
  keepAlive hlowered := hmore.keepAlive (h.keepAlive hlowered)
  terminated hset := hmore.terminated (h.terminated hset)
  worker name hworker := hmore.worker name (h.worker name hworker)
  teardown := by
    obtain hkept | hnone := hmore.teardown
    · rw [hkept]
      exact h.teardown
    · exact .inr hnone

theorem worker_isSome (h : before.Advances after) (hworker : before.worker.isSome = true) :
    after.worker.isSome = true := by
  obtain ⟨worker, hsome⟩ := Option.isSome_iff_exists.mp hworker
  rw [h.worker worker hsome]
  rfl

/-- A teardown that is not there later was not there before. -/
theorem teardown_ne {teardown : Teardown} (h : before.Advances after)
    (hne : before.teardown ≠ some teardown) : after.teardown ≠ some teardown := by
  obtain hkept | hnone := h.teardown
  · rwa [hkept]
  · rw [hnone]
    nofun

end Advances

theorem advances_of_keepAlive (lock : Lock σ) {keepAlive : Signal}
    (h : lock.keepAlive.isSet = false → keepAlive.isSet = false) :
    lock.Advances { lock with keepAlive } :=
  ⟨rfl, h, id, fun _ ↦ id, .inl rfl⟩

end Lock

namespace ThreadState

variable {build : Build} {now : Nat} {me : Thread} {lock : Lock σ} {self : ThreadState σ}
  {call? : Option (Call σ)} {effect : Effect σ}

theorem Rule.advances (rule : Rule build now me lock self call? effect) :
    lock.Advances effect.lock := by
  cases rule with
  | request =>
    rw [lock_answer, Lock.lock_requestShutdown]
    exact lock.advances_of_keepAlive fun _ ↦ rfl
  | endBegin => exact lock.advances_of_keepAlive fun _ ↦ rfl
  | giveUp => exact ⟨rfl, fun _ ↦ rfl, id, fun _ ↦ id, .inl rfl⟩
  | giveUpNested =>
    rw [lock_fail]
    exact ⟨rfl, fun _ ↦ rfl, id, fun _ ↦ id, .inl rfl⟩
  | adoptWon _ _ hworker =>
    refine ⟨rfl, id, id, fun name hname ↦ ?_, .inl rfl⟩
    rw [hworker] at hname
    cases hname
  | dispose | disposeNone => exact ⟨rfl, id, id, fun _ ↦ id, .inr rfl⟩
  | mark =>
    rw [lock_conclude]
    exact ⟨rfl, id, fun _ ↦ rfl, fun _ ↦ id, .inl rfl⟩
  | @tearDown _ teardown => exact lock.advances_of_keepAlive teardown.run_lowered
  | @tearDownFailed _ teardown =>
    rw [lock_fail]
    exact lock.advances_of_keepAlive teardown.run_lowered
  | closeRunning | recheck | retake | close =>
    rw [lock_check]
    exact ⟨rfl, id, id, fun _ ↦ id, .inl rfl⟩
  | dropEnded | finishEnded =>
    rw [lock_conclude]
    exact ⟨rfl, id, id, fun _ ↦ id, .inl rfl⟩
  | startLate | adoptLost | obtainUnmatched =>
    rw [lock_fail]
    exact ⟨rfl, id, id, fun _ ↦ id, .inl rfl⟩
  | _ => exact ⟨rfl, id, id, fun _ ↦ id, .inl rfl⟩

/-- A request for shutdown leaves the signal lowered, whoever lowered it. -/
theorem Rule.lowered_of_requested {request : ShutdownRequest}
    (rule : Rule build now me lock self call? effect) (h : .requested request ∈ effect.answers) :
    effect.lock.keepAlive.isSet = false := by
  cases rule with
  | request =>
    rw [lock_answer, Lock.lock_requestShutdown]
    rfl
  | closeRunning | recheck | retake | close =>
    rw [answers_check] at h
    split at h <;> simp at h
  | dropEnded | finishEnded | mark =>
    rw [answers_conclude, List.mem_singleton] at h
    exact absurd h.symm (Call.ending_ne_requested _ _)
  | giveUpNested | startLate | adoptLost | obtainUnmatched =>
    rw [answers_fail, List.mem_singleton] at h
    exact absurd h.symm (Call.failure_ne_requested _ _ _)
  | tearDownFailed =>
    rw [Effect.answers_tornDown, answers_fail, List.mem_singleton] at h
    exact absurd h.symm (Call.failure_ne_requested _ _ _)
  | tearDown =>
    rw [Effect.answers_tornDown, Effect.answers_entries] at h
    cases h
  | @adoptWon call =>
    rw [answers_answer, List.mem_singleton] at h
    cases call <;> cases h
  | yieldInWindow | openTwice =>
    rw [answers_answer, List.mem_singleton] at h
    split at h <;> cases h
  | park => cases h
  | _ => simp at h

end ThreadState

section

variable {build : Build} {start world next : World σ} {move : Move σ} {events : List (Event σ)}
  {turns : List (Turn σ)}

theorem World.Change.advances (change : World.Change build world move next events) :
    world.lock.Advances next.lock := by
  cases change with
  | own name call? effect _ rule => exact rule.advances
  | enter | pass | spawn | spawnRefused => exact .refl _

theorem Run.advances (run : Run build start turns world) : start.lock.Advances world.lock := by
  induction run with
  | nil => exact .refl _
  | snoc run hmove ih => exact ih.trans (World.change_of_move? hmove).advances

theorem World.Change.lowered_of_requested {call : Call σ} {request : ShutdownRequest}
    (change : World.Change build world move next events)
    (h : .answered call (.requested request) ∈ events) : next.lock.keepAlive.isSet = false := by
  have hanswer := Event.mem_answers h
  cases change with
  | own name call? effect _ rule => exact rule.lowered_of_requested hanswer
  | enter | pass => cases h
  | spawn | spawnRefused => simp [Event.answer?] at hanswer

/-- Once a request for shutdown has been answered, the signal stays lowered. -/
theorem Run.lowered_of_requested (run : Run build start turns world)
    (h : ∃ turn ∈ turns, ∃ call request, .answered call (.requested request) ∈ turn.events) :
    world.lock.keepAlive.isSet = false := by
  obtain ⟨turn, hmem, call, request, hevent⟩ := h
  induction run with
  | nil => cases hmem
  | snoc run hmove ih =>
    have change := World.change_of_move? hmove
    rw [List.mem_append, List.mem_singleton] at hmem
    obtain hearlier | rfl := hmem
    · exact change.advances.keepAlive (ih hearlier)
    · exact change.lowered_of_requested hevent

end

end YieldLock
