import YieldLock.Proofs.Announcement

/-!
# Steps that happen once

Two kinds of step can happen only once on a lock: a thread becomes the worker, and
the signal is lowered by the first to ask for a shutdown. Both show it. Every
other step shows what is routine. Main statement:
`World.Change.routine_or_milestone`, what a move shows is routine or the move is
one of these.
-/

namespace YieldLock

variable {σ : Type}

namespace Lock

theorem requestShutdown_of_worker {lock : Lock σ} {thread : Thread}
    (hset : lock.keepAlive.isSet = true) (hworker : lock.isWorker thread = true) :
    lock.requestShutdown thread =
      (.workerMustExit, [.workerInitiates],
        { lock with keepAlive := lock.keepAlive.clear }) := by
  unfold requestShutdown
  simp only [Signal.take_fst, hset, hworker, Bool.not_true, Bool.false_eq_true, if_true, if_false]
  rfl

theorem requestShutdown_of_other {lock : Lock σ} {thread : Thread}
    (hset : lock.keepAlive.isSet = true) (hworker : lock.isWorker thread = false) :
    lock.requestShutdown thread =
      (.signalled, [.shutdownRequested], { lock with keepAlive := lock.keepAlive.clear }) := by
  unfold requestShutdown
  simp only [Signal.take_fst, hset, hworker, Bool.not_true, Bool.false_eq_true, if_false]
  rfl

end Lock

/-- The event tells neither of a new worker nor of the first request for shutdown. -/
def Event.isRoutine : Event σ → Bool
  | .entry (.logged (.adopted _)) => false
  | .entry (.logged message) => !message.isInitiation
  | .answered _ .adopted | .answered _ .started => false
  | .answered _ (.requested request) => request == .alreadyRequested
  | _ => true

/-- A step that makes its thread the worker or is the first to lower the signal on request. -/
inductive Milestone (me : Thread) (before after : Lock σ) :
    Option (Call σ) → List (Event σ) → Prop where
  | adopts (call : Call σ) (title : Option String) (hbefore : before.worker = none)
      (hafter : after.worker = some me) :
      Milestone me before after none
        [.entry (.logged (.adopted title)), .answered call (ThreadState.adoptedAnswer call)]
  | requests (request : ShutdownRequest) (message : Message)
      (hrequest : before.isWorker me = true ∧ request = .workerMustExit ∧
          message = .workerInitiates ∨
        before.isWorker me = false ∧ request = .signalled ∧ message = .shutdownRequested)
      (hset : before.keepAlive.isSet = true)
      (hafter : after = { before with keepAlive := before.keepAlive.clear }) :
      Milestone me before after (some .requestShutdown)
        [.entry (.logged message), .answered .requestShutdown (.requested request)]
  | initiates (hset : before.keepAlive.isSet = true)
      (hafter : after = { before with keepAlive := before.keepAlive.clear }) :
      Milestone me before after (some .endSession) [.entry (.logged .workerInitiates)]

namespace ThreadState

theorem isRoutine_ending (call : Call σ) : (Event.answered call call.ending).isRoutine = true := by
  cases call <;> rfl

theorem isRoutine_failure (call : Call σ) (panic : Panic) :
    (Event.answered call (call.failure panic)).isRoutine = true := by
  cases call <;> rfl

/-- Once the signal is lowered, a teardown leaves nothing but notes. -/
theorem isRoutine_tearDown {lock : Lock σ} (hlowered : lock.keepAlive.isSet = false)
    (thread : Thread) (teardown : Teardown) :
    ∀ line ∈ (teardown.run thread lock).1, (Event.entry line : Event σ).isRoutine = true := by
  intro line hline
  obtain ⟨text, rfl⟩ | ⟨message, hmessage, _⟩ := teardown.entry_of_run thread lock line hline
  · rfl
  · rw [Lock.requestShutdown_of_lowered hlowered] at hmessage
    cases hmessage

section

variable {build : Build} {now : Nat} {me : Thread} {lock : Lock σ} {self : ThreadState σ}
  {call? : Option (Call σ)} {effect : Effect σ}

/-- A step shows what is routine or is a milestone; a teardown is entered too late for one. -/
theorem Rule.routine_or_milestone (rule : Rule build now me lock self call? effect)
    (hlowered : self.activity.followsGiveUp = true → lock.keepAlive.isSet = false) :
    (effect.lock.worker = lock.worker ∧ ∀ event ∈ effect.events, event.isRoutine = true) ∨
      Milestone me lock effect.lock call? effect.events := by
  have hnone : ∀ line ∈ ([] : List Entry), (Event.entry line : Event σ).isRoutine = true :=
    List.forall_mem_nil _
  have hone {line : Entry} (h : (Event.entry line : Event σ).isRoutine = true) :
      ∀ other ∈ [line], (Event.entry other : Event σ).isRoutine = true :=
    List.forall_mem_singleton.mpr h
  cases rule with
  | @adoptWon call _ _ hworker => exact .inr (.adopts call self.title hworker rfl)
  | request =>
    cases hset : lock.keepAlive.isSet with
    | true =>
      have hlock := lock.lock_requestShutdown me
      right
      cases hworker : lock.isWorker me with
      | true =>
        have hrequest := Lock.requestShutdown_of_worker hset hworker
        rw [hrequest] at hlock ⊢
        exact .requests _ _ (.inl ⟨hworker, rfl, rfl⟩) hset hlock
      | false =>
        have hrequest := Lock.requestShutdown_of_other hset hworker
        rw [hrequest] at hlock ⊢
        exact .requests _ _ (.inr ⟨hworker, rfl, rfl⟩) hset hlock
    | false =>
      rw [Lock.requestShutdown_of_lowered hset]
      exact .inl ⟨rfl, (forall_shown_answer ..).mpr ⟨hnone, rfl⟩⟩
  | endBegin =>
    cases hset : lock.keepAlive.isSet with
    | true => exact .inr (.initiates hset rfl)
    | false => exact .inl ⟨rfl, (forall_shown_goOn ..).mpr hnone⟩
  | reenter =>
    refine .inl ⟨rfl, (forall_shown_goOn ..).mpr ?_⟩
    split
    · exact hone rfl
    · exact hnone
  | enter | adopt | yieldToExit | yieldToPoll | closeBegin | dropBegin | finishBegin | joinBegin
  | start | wake | dispose | disposeNone =>
    exact .inl ⟨rfl, (forall_shown_goOn ..).mpr hnone⟩
  | pollSleep | pollFree | giveUp => exact .inl ⟨rfl, (forall_shown_goOn ..).mpr (hone rfl)⟩
  | park => exact .inl ⟨rfl, List.forall_mem_nil _⟩
  | @tearDown call teardown hbusy =>
    refine .inl ⟨rfl, List.forall_mem_cons.mpr ⟨rfl, List.forall_mem_map.mpr ?_⟩⟩
    exact isRoutine_tearDown (hlowered (by rw [hbusy]; rfl)) me teardown
  | @tearDownFailed call teardown panic hbusy =>
    refine .inl ⟨?_, List.forall_mem_cons.mpr ⟨rfl, (forall_shown_fail ..).mpr ⟨?_, ?_⟩⟩⟩
    · rw [lock_fail]
    · exact isRoutine_tearDown (hlowered (by rw [hbusy]; rfl)) me teardown
    · exact isRoutine_failure call panic
  | obtainUnmatched | startLate | adoptLost | giveUpNested =>
    refine .inl ⟨?_, (forall_shown_fail ..).mpr ⟨hnone, isRoutine_failure _ _⟩⟩
    rw [lock_fail]
  | dropEnded | finishEnded | mark =>
    refine .inl ⟨?_, (forall_shown_conclude ..).mpr (isRoutine_ending _)⟩
    rw [lock_conclude]
  | closeRunning | recheck | close =>
    refine .inl ⟨?_, (forall_shown_check ..).mpr ⟨hnone, fun _ ↦ rfl⟩⟩
    rw [lock_check]
  | retake =>
    refine .inl ⟨?_, (forall_shown_check ..).mpr ⟨hone rfl, fun _ ↦ rfl⟩⟩
    rw [lock_check]
  | yieldInWindow | openTwice =>
    refine .inl ⟨rfl, (forall_shown_answer ..).mpr ⟨hnone, ?_⟩⟩
    split <;> rfl
  | yieldAfterExit | openAfterExit | closeAfterExit =>
    exact .inl ⟨rfl, (forall_shown_answer ..).mpr ⟨hone rfl, rfl⟩⟩
  | _ => exact .inl ⟨rfl, (forall_shown_answer ..).mpr ⟨hnone, rfl⟩⟩

end

end ThreadState

/-- What a move shows is routine or the move is a milestone of its thread. -/
theorem World.Change.routine_or_milestone {build : Build} {world next : World σ} {move : Move σ}
    {events : List (Event σ)} (change : World.Change build world move next events)
    (h : Reachable build world) :
    (next.lock.worker = world.lock.worker ∧ ∀ event ∈ events, event.isRoutine = true) ∨
      ∃ me call?, move = .ofThread me call? ∧
        Milestone me world.lock next.lock call? events := by
  cases change with
  | own name call? effect _ rule =>
    obtain hroutine | hmilestone := rule.routine_or_milestone h.lowered_of_followsGiveUp
    · exact .inl hroutine
    · exact .inr ⟨name, call?, rfl, hmilestone⟩
  | enter | pass => exact .inl ⟨rfl, List.forall_mem_nil _⟩
  | spawn | spawnRefused => exact .inl ⟨rfl, List.forall_mem_singleton.mpr rfl⟩

/-- Routine shows no event of a kind that only milestones show. -/
theorem countP_of_routine {p : Event σ → Bool} {events : List (Event σ)}
    (hp : ∀ event, p event = true → event.isRoutine = false)
    (h : ∀ event ∈ events, event.isRoutine = true) : events.countP p = 0 := by
  apply List.countP_eq_zero.mpr
  intro event hevent hshown
  cases (h event hevent).symm.trans (hp event hshown)

end YieldLock
