import YieldLock.Proofs.Milestones

/-!
# One shutdown, one initiator

The signal that shutdown lowers is raised when the lock is new and never again.
The first to lower it on request says so, and everybody who asks for a shutdown
later is told that it is too late and changes nothing. Main statements:
`Turn.request_answers`, what a request is answered, and
`shutdown_has_one_initiator`.
-/

namespace YieldLock

variable {σ : Type}

namespace Event

/-- A request for shutdown is answered as the first one. -/
def winsShutdown : Event σ → Bool
  | .answered _ (.requested request) => request != .alreadyRequested
  | _ => false

/-- A line that announces a shutdown. -/
def isInitiationLine : Event σ → Bool
  | .entry (.logged message) => message.isInitiation
  | _ => false

theorem isRoutine_of_winsShutdown (event : Event σ) (h : event.winsShutdown = true) :
    event.isRoutine = false := by
  cases event with
  | answered call reply =>
    cases reply with
    | requested request =>
      cases request with
      | alreadyRequested => cases h
      | signalled | workerMustExit => rfl
    | _ => cases h
  | entry | tornDown => cases h

theorem isRoutine_of_isInitiationLine (event : Event σ) (h : event.isInitiationLine = true) :
    event.isRoutine = false := by
  cases event with
  | entry line =>
    cases line with
    | logged message =>
      cases message with
      | workerInitiates | shutdownRequested => rfl
      | _ => cases h
    | slept | noted => cases h
  | answered | tornDown => cases h

end Event

namespace World

/-- How often the signal has been lowered that was raised at first. -/
def lowerings (world : World σ) : Nat := if world.lock.keepAlive.isSet then 0 else 1

section

variable {build : Build} {world next : World σ} {move : Move σ} {events : List (Event σ)}
  {me : Thread}

theorem Change.lowerings_le (change : Change build world move next events) :
    world.lowerings ≤ next.lowerings := by
  unfold lowerings
  cases hset : world.lock.keepAlive.isSet with
  | true => exact Nat.zero_le _
  | false =>
    apply Nat.le_of_eq
    rw [change.advances.keepAlive hset]

/-- Each sign of the first request uses up the one lowering of the signal. -/
theorem Change.lowerings_add_countP_le (change : Change build world move next events)
    (h : Reachable build world) {p : Event σ → Bool}
    (hp : p = Event.winsShutdown ∨ p = Event.isInitiationLine) :
    world.lowerings + events.countP p ≤ next.lowerings := by
  have hroutine (event : Event σ) (hevent : p event = true) : event.isRoutine = false := by
    obtain rfl | rfl := hp
    · exact event.isRoutine_of_winsShutdown hevent
    · exact event.isRoutine_of_isInitiationLine hevent
  obtain ⟨_, hevents⟩ | ⟨name, call?, _, hmilestone⟩ := change.routine_or_milestone h
  · rw [countP_of_routine hroutine hevents]
    exact change.lowerings_le
  · cases hmilestone with
    | adopts call title =>
      have hnone : [.entry (.logged (.adopted title)),
          .answered call (ThreadState.adoptedAnswer call)].countP p = 0 := by
        obtain rfl | rfl := hp <;> cases call <;> rfl
      rw [hnone]
      exact change.lowerings_le
    | requests request message hrequest hset hafter =>
      have hone : [Event.entry (.logged message),
          .answered (.requestShutdown : Call σ) (.requested request)].countP p = 1 := by
        obtain ⟨_, rfl, rfl⟩ | ⟨_, rfl, rfl⟩ := hrequest <;>
          obtain rfl | rfl := hp <;> rfl
      apply Nat.le_of_eq
      rw [hone, lowerings, hset, lowerings, hafter]
      rfl
    | initiates hset hafter =>
      have hone : [(Event.entry (.logged .workerInitiates) : Event σ)].countP p ≤ 1 :=
        List.countP_le_length
      rw [lowerings, hset, lowerings, hafter]
      exact Nat.le_trans (Nat.le_of_eq (Nat.zero_add _)) hone

/-- Where the signal is lowered, a request comes back at once and changes nothing. -/
theorem call?_requestShutdown_of_lowered (hidle : (world.thread me).activity = .idle)
    (hroom : world.hasRoomFor [me] = true) (hlowered : world.lock.keepAlive.isSet = false) :
    ∃ next, world.call? build me .requestShutdown =
        some (next, [.answered .requestShutdown (.requested .alreadyRequested)]) ∧
      next.lock = world.lock ∧ ∀ name, next.thread name = world.thread name := by
  apply call?_of_unchanged rfl hidle hroom
  have hpermits : (world.thread me).permits .requestShutdown = true := by
    rw [ThreadState.permits, hidle]
    rfl
  rw [ThreadState.invoke?, hpermits]
  simp only [Lock.requestShutdown_of_lowered hlowered, Bool.not_true, Bool.false_eq_true, if_false,
    List.map_nil]

end

end World

section

variable {build : Build} {start world : World σ} {turns : List (Turn σ)} {me : Thread}

theorem Run.countP_initiation_le (run : Run build start turns world) (h : Reachable build start)
    {p : Event σ → Bool} (hp : p = Event.winsShutdown ∨ p = Event.isInitiationLine) :
    (shownIn turns).countP p ≤ 1 := by
  have hspent := run.spent_add_countP_le h p World.lowerings fun turn hturn hmove ↦
    (World.change_of_move? hmove).lowerings_add_countP_le hturn hp
  have hbound : world.lowerings ≤ 1 := by
    unfold World.lowerings
    split <;> decide
  omega

/-- A request for shutdown is a single step. -/
theorem ThreadState.IsSound.ne_requestShutdown {self : ThreadState σ} (h : self.IsSound)
    (point : Point) : self.activity ≠ .busy .requestShutdown point := by
  intro hbusy
  have hplace := h.place _ _ hbusy
  cases point with
  | waiting | reentering | joining => cases hplace
  | adopting => obtain ⟨heq | heq, _⟩ := hplace <;> cases heq
  | _ => cases hplace.1

/-- A request for shutdown either comes too late and changes nothing, or it is the one that lowers
the signal, and then it is answered by whether its thread is the worker. -/
theorem Turn.request_answers {turn : Turn σ} (hmove : turn.IsMove build)
    (h : Reachable build turn.before) {reply : Answer σ}
    (hanswers : turn.Answers me .requestShutdown reply) :
    turn.before.lock.keepAlive.isSet = false ∧ turn.after.lock = turn.before.lock ∧
        reply = .requested .alreadyRequested ∨
      turn.before.lock.keepAlive.isSet = true ∧ turn.after.lock.keepAlive.isSet = false ∧
        reply = .requested
          (if turn.before.lock.worker = some me then .workerMustExit else .signalled) := by
  have hsound := (h.fits me).sound
  obtain ⟨call?, effect, rule, hin, _, hafter, hevents⟩ :=
    Turn.exists_rule_of_answers hmove hsound rfl hanswers
  have hreply : reply ∈ effect.answers := by
    apply Event.mem_answers
    rw [← hevents]
    exact hanswers.2
  obtain rfl | ⟨_, point, hbusy⟩ := hin
  · cases rule with
    | request =>
      rw [ThreadState.answers_answer, List.mem_singleton] at hreply
      have hlock : turn.after.lock = (turn.before.lock.requestShutdown me).2.2 := by
        rw [hafter, World.lock_after, ThreadState.lock_answer]
      cases hset : turn.before.lock.keepAlive.isSet with
      | false =>
        rw [Lock.requestShutdown_of_lowered hset] at hreply hlock
        exact .inl ⟨rfl, hlock, hreply⟩
      | true =>
        right
        refine ⟨rfl, by rw [hlock, Lock.lock_requestShutdown]; rfl, ?_⟩
        cases hworker : turn.before.lock.isWorker me with
        | true =>
          rw [Lock.requestShutdown_of_worker hset hworker] at hreply
          rw [hreply, if_pos (eq_of_beq hworker)]
        | false =>
          rw [Lock.requestShutdown_of_other hset hworker] at hreply
          rw [hreply, if_neg (ne_of_beq_false hworker)]
    | outOfReach _ hother | dropBegin _ hother | dropEnded _ hother =>
      obtain heq | ⟨_, heq⟩ := hother <;> cases heq
  · exact absurd hbusy (hsound.ne_requestShutdown point)

/-- The signal is raised at first and stays lowered once it is. At most one request for shutdown in
a run is not told that it comes too late: the one that lowers the signal, answered by whether its
thread is the worker. Any other finds the signal lowered, by whomever, and changes nothing, also
inside a teardown. At most one line announces a shutdown. -/
theorem shutdown_has_one_initiator (hnew : start.IsNew) (run : Run build start turns world) :
    start.lock.keepAlive.isSet = true ∧
    (∀ more later, Run build world more later → world.lock.keepAlive.isSet = false →
      later.lock.keepAlive.isSet = false) ∧
    ((shownIn turns).countP Event.winsShutdown ≤ 1 ∧
      (shownIn turns).countP Event.isInitiationLine ≤ 1) ∧
    (∀ turn ∈ turns, ∀ me reply, turn.Answers me .requestShutdown reply →
      turn.before.lock.keepAlive.isSet = false ∧ turn.after.lock = turn.before.lock ∧
          reply = .requested .alreadyRequested ∨
        turn.before.lock.keepAlive.isSet = true ∧ turn.after.lock.keepAlive.isSet = false ∧
          reply = .requested
            (if turn.before.lock.worker = some me then .workerMustExit else .signalled)) ∧
    (world.lock.keepAlive.isSet = false → ∀ me, (world.thread me).activity = .idle →
      world.hasRoomFor [me] = true →
      ∃ next, world.call? build me .requestShutdown =
          some (next, [.answered .requestShutdown (.requested .alreadyRequested)]) ∧
        next.lock = world.lock ∧ ∀ name, next.thread name = world.thread name) ∧
    (∀ turn ∈ turns, ∀ teardown, .tornDown teardown ∈ turn.events → ∀ name,
      turn.before.lock.requestShutdown name = (.alreadyRequested, [], turn.before.lock)) := by
  have hstart : Reachable build start := Run.nil.reachable hnew
  refine ⟨?_, ?_, ⟨?_, ?_⟩, ?_, ?_, ?_⟩
  · obtain ⟨value, config, teardown, hlock⟩ := hnew.lock.exists_eq
    rw [hlock]
  · exact fun more later hmore ↦ hmore.advances.keepAlive
  · exact run.countP_initiation_le hstart (.inl rfl)
  · exact run.countP_initiation_le hstart (.inr rfl)
  · intro turn hmem me reply hanswers
    obtain ⟨hturn, hmove⟩ := run.isMove_of_mem hstart hmem
    exact Turn.request_answers hmove hturn hanswers
  · exact fun hlowered me hidle hroom ↦
      World.call?_requestShutdown_of_lowered hidle hroom hlowered
  · intro turn hmem teardown hevent
    obtain ⟨hturn, hmove⟩ := run.isMove_of_mem hstart hmem
    obtain ⟨me, call, _, _, hprepared⟩ := hmove.isPrepared hturn hevent
    exact Lock.requestShutdown_of_lowered hprepared.lowered

/-- Two threads ask for a shutdown, then the worker does so through its session; only the first is
heard, and a fourth that asks in the end is not. -/
theorem only_first_of_four_requests_heard :
    ∃ (start world : World Unit) (turns : List (Turn Unit)), Run .checked start turns world ∧
      (∃ turn ∈ turns, turn.Answers "first" .requestShutdown (.requested .signalled)) ∧
      (∃ turn ∈ turns, turn.Answers "second" .requestShutdown (.requested .alreadyRequested)) ∧
      (∃ turn ∈ turns, turn.Answers "worker" .endSession (.flow .exit)) ∧
      (shownIn turns).countP Event.winsShutdown ≤ 1 ∧
      (shownIn turns).countP Event.isInitiationLine ≤ 1 ∧
      ∃ next, world.call? .checked "fourth" .requestShutdown =
        some (next, [.answered .requestShutdown (.requested .alreadyRequested)]) := by
  let start : World Unit := { lock := .standard .checked () }
  let moves : List (Move Unit) :=
    [.call "worker" .adopt, .step "worker", .call "first" .requestShutdown,
      .call "second" .requestShutdown, .call "worker" .endSession, .step "worker",
      .step "worker", .step "worker"]
  have hplay : ∃ turns world, start.play? .checked moves = some (turns, world) ∧
      (∃ first second last, turns[2]? = some first ∧ turns[3]? = some second ∧
        turns[7]? = some last ∧
        first.Answers "first" .requestShutdown (.requested .signalled) ∧
        second.Answers "second" .requestShutdown (.requested .alreadyRequested) ∧
        last.Answers "worker" .endSession (.flow .exit)) ∧
      world.lock.keepAlive.isSet = false ∧ (world.thread "fourth").activity = .idle ∧
      world.hasRoomFor ["fourth"] = true := by
    refine ⟨_, _, rfl, ⟨_, _, _, rfl, rfl, rfl, ?_, ?_, ?_⟩, rfl, rfl, rfl⟩
    · exact ⟨rfl, .tail _ (.head _)⟩
    · exact ⟨rfl, .head _⟩
    · exact ⟨rfl, .head _⟩
  obtain ⟨turns, world, hturns, ⟨first, second, last, hfirst, hsecond, hlast, hheard, hlate, hends⟩,
    hlowered, hidle, hroom⟩ := hplay
  have hrun := run_of_play? hturns
  obtain ⟨_, _, ⟨hwins, hlines⟩, _, hrefused, _⟩ :=
    shutdown_has_one_initiator ⟨.standard .checked (), rfl⟩ hrun
  obtain ⟨next, hcall, _⟩ := hrefused hlowered "fourth" hidle hroom
  exact ⟨start, world, turns, hrun, ⟨first, List.mem_of_getElem? hfirst, hheard⟩,
    ⟨second, List.mem_of_getElem? hsecond, hlate⟩, ⟨last, List.mem_of_getElem? hlast, hends⟩,
    hwins, hlines, next, hcall⟩

end

end YieldLock
