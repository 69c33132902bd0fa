import YieldLock.Proofs.Milestones
import YieldLock.Proofs.Waiting

/-!
# One worker for ever

A thread that is to become the worker looks whether there is one, waits for the
lock, and looks again. Whatever it finds, an attempt that fails leaves the lock
and the other threads as they were, and the thread too. Main statements:
`Rule.attempt`, all that a step of an attempt can come to, and
`one_worker_for_ever`.
-/

namespace YieldLock

variable {σ : Type}

theorem Mutex.giveBack_take {mutex : Mutex} {thread : Thread}
    (h : mutex.canTake thread = true) :
    (mutex.take thread).giveBack thread = { mutex with queue := mutex.queue.erase thread } := by
  have hqueue : ((mutex.take thread).giveBack thread).queue = mutex.queue.erase thread :=
    queue_giveBack ..
  calc
    _ = Mutex.mk ((mutex.take thread).giveBack thread).hold
        ((mutex.take thread).giveBack thread).queue := rfl
    _ = _ := by rw [hold_giveBack_take h, hqueue]

namespace Event

/-- A call is answered that has made its thread the worker. -/
def isAdoption : Event σ → Bool
  | .answered _ .adopted | .answered _ .started => true
  | _ => false

/-- The line that tells of a new worker. -/
def isAdoptionLine : Event σ → Bool
  | .entry (.logged (.adopted _)) => true
  | _ => false

theorem isRoutine_of_isAdoption (event : Event σ) (h : event.isAdoption = true) :
    event.isRoutine = false := by
  cases event with
  | answered call reply =>
    cases reply with
    | adopted | started => rfl
    | _ => cases h
  | entry | tornDown => cases h

theorem isRoutine_of_isAdoptionLine (event : Event σ) (h : event.isAdoptionLine = true) :
    event.isRoutine = false := by
  cases event with
  | entry line =>
    cases line with
    | logged message =>
      cases message with
      | adopted => rfl
      | _ => cases h
    | slept | noted => cases h
  | answered | tornDown => cases h

end Event

/-- The thread is inside a call that is to make it the worker. -/
def Activity.isAdopting : Activity σ → Bool
  | busy .adopt _ | busy .start _ => true
  | _ => false

namespace ThreadState

/-- A step that belongs to the thread's attempt to become the worker. -/
def Attempts (self : ThreadState σ) (call? : Option (Call σ)) : Prop :=
  call? = some .adopt ∨ call? = none ∧ self.activity.isAdopting = true

/-- What a step of an attempt comes to: it has no end yet, or it fails because there is a worker,
and either way only the thread's places in the queue and in its call have changed; or the thread
becomes the first worker. -/
inductive Attempt (me : Thread) (lock : Lock σ) (self : ThreadState σ) (effect : Effect σ) :
    Prop where
  | pends (queue : List Thread) (activity : Activity σ)
      (hqueue : queue.filter (· != me) = lock.mutex.queue.filter (· != me))
      (hlock : effect.lock = { lock with mutex := { lock.mutex with queue } })
      (hself : effect.self = { self with activity }) (hevents : effect.events = [])
  | fails (call : Call σ) (queue : List Thread) (activity : Activity σ)
      (hqueue : queue.filter (· != me) = lock.mutex.queue.filter (· != me))
      (hlock : effect.lock = { lock with mutex := { lock.mutex with queue } })
      (hself : effect.self = { self with activity })
      (hevents : effect.events = [.answered call (call.failure .alreadyAdopted)])
      (hactivity : call = .start → activity = .finished (some .alreadyAdopted))
  | wins (call : Call σ) (hworker : lock.worker = none)
      (hevents : effect.events =
        [.entry (.logged (.adopted self.title)), .answered call (adoptedAnswer call)])

section

variable {build : Build} {now : Nat} {me : Thread} {lock : Lock σ} {self : ThreadState σ}
  {call? : Option (Call σ)} {effect : Effect σ}

/-- A thread that is inside an attempt stands at its start or at the lock, and has no session. -/
theorem IsSound.place_of_isAdopting (h : self.IsSound) (hadopting : self.activity.isAdopting = true)
    {call : Call σ} {point : Point} (hbusy : self.activity = .busy call point) :
    (call = .adopt ∨ call = .start) ∧ self.session = none ∧
      (point = .starting ∨ point = .adopting) := by
  have hplace := h.place _ _ hbusy
  rw [hbusy] at hadopting
  cases point with
  | starting => exact ⟨.inr hplace.1, hplace.2, .inl rfl⟩
  | adopting => exact ⟨hplace.1, hplace.2, .inr rfl⟩
  | waiting | reentering | joining =>
    rw [show call = _ from hplace] at hadopting
    cases hadopting
  | polling | rechecking | sleeping | retaking | closing =>
    rw [hplace.1] at hadopting
    cases hadopting
  | lowering | disposing | tearingDown | marking =>
    cases call with
    | adopt | start => cases hplace.1
    | _ => cases hadopting

/-- An attempt that fails leaves no session behind, since its thread had none. -/
theorem attempt_fail {call : Call σ} (hcall : call = .adopt ∨ call = .start)
    (hsession : self.session = none) {after : Lock σ} (queue : List Thread)
    (hqueue : queue.filter (· != me) = lock.mutex.queue.filter (· != me))
    (hlock : after = { lock with mutex := { lock.mutex with queue } }) :
    Attempt me lock self (fail after self call .alreadyAdopted []) := by
  obtain rfl | rfl := hcall
  · exact .fails .adopt queue .idle hqueue hlock rfl rfl nofun
  · apply Attempt.fails .start queue (.finished (some .alreadyAdopted)) hqueue hlock
    · change ({ self with session := none, activity := _ } : ThreadState σ) = _
      rw [← hsession]
    · rfl
    · exact fun _ ↦ rfl

/-- The first call of a thread that is started is not made by a step of it. -/
theorem Rule.ne_start {call : Call σ} (rule : Rule build now me lock self (some call) effect) :
    call ≠ .start := by
  rintro rfl
  cases rule with
  | outOfReach _ hother | dropBegin _ hother | dropEnded _ hother =>
    obtain heq | ⟨_, heq⟩ := hother <;> cases heq

theorem Rule.attempt (rule : Rule build now me lock self call? effect) (hsound : self.IsSound)
    (hattempts : self.Attempts call?) : Attempt me lock self effect := by
  obtain rfl | ⟨rfl, hadopting⟩ := hattempts
  · cases rule with
    | adoptLate => exact .fails .adopt lock.mutex.queue .idle rfl rfl rfl rfl nofun
    | adopt => exact .pends lock.mutex.queue _ rfl rfl rfl rfl
    | outOfReach _ hother | dropBegin _ hother | dropEnded _ hother =>
      obtain heq | ⟨_, heq⟩ := hother <;> cases heq
  · have hplace {call : Call σ} {point : Point} (hbusy : self.activity = .busy call point) :=
      hsound.place_of_isAdopting hadopting hbusy
    cases rule with
    | park hbusy =>
      refine .pends (lock.mutex.queue ++ [me]) self.activity ?_ rfl rfl rfl
      simp
    | start hbusy => exact .pends lock.mutex.queue _ rfl rfl rfl rfl
    | startLate hbusy =>
      exact attempt_fail (hplace hbusy).1 (hplace hbusy).2.1 lock.mutex.queue rfl rfl
    | adoptLost hbusy hfree =>
      apply attempt_fail (hplace hbusy).1 (hplace hbusy).2.1 (lock.mutex.queue.erase me)
      · rw [← List.erase_filter, List.erase_of_not_mem]
        simp
      · rw [Mutex.giveBack_take hfree]
    | @adoptWon call hbusy hfree hworker => exact .wins call hworker rfl
    | _ hbusy => obtain ⟨_, _, heq | heq⟩ := hplace hbusy <;> cases heq

end

end ThreadState

namespace World

/-- How many workers the lock has had. -/
def workers (world : World σ) : Nat := if world.lock.worker.isSome then 1 else 0

/-- A thread is told that there is a worker, and if it was started to become one it has ended
of that. -/
def Refused (me : Thread) (call : Call σ) (next : World σ) (reply : Answer σ) : Prop :=
  reply = call.failure .alreadyAdopted ∧
    (call = .start → (next.thread me).activity = .finished (some .alreadyAdopted))

section

variable {build : Build} {world next : World σ} {move : Move σ} {events : List (Event σ)}
  {me : Thread}

/-- Each sign of an adoption uses up the one worker that a lock can have. -/
theorem Change.workers_add_countP (change : Change build world move next events)
    (h : Reachable build world) {p : Event σ → Bool}
    (hp : p = Event.isAdoption ∨ p = Event.isAdoptionLine) :
    world.workers + events.countP p = next.workers := by
  have hroutine (event : Event σ) (hevent : p event = true) : event.isRoutine = false := by
    obtain rfl | rfl := hp
    · exact event.isRoutine_of_isAdoption hevent
    · exact event.isRoutine_of_isAdoptionLine hevent
  obtain ⟨hworker, hevents⟩ | ⟨name, call?, _, hmilestone⟩ := change.routine_or_milestone h
  · rw [countP_of_routine hroutine hevents, Nat.add_zero, workers, workers, hworker]
  · cases hmilestone with
    | adopts call title hbefore hafter =>
      have hone : [.entry (.logged (.adopted title)),
          .answered call (ThreadState.adoptedAnswer call)].countP p = 1 := by
        obtain rfl | rfl := hp <;> cases call <;> rfl
      rw [hone, workers, hbefore, workers, hafter]
      rfl
    | requests request message hrequest _ hafter =>
      have hnone : [Event.entry (.logged message),
          .answered (.requestShutdown : Call σ) (.requested request)].countP p = 0 := by
        obtain ⟨_, rfl, rfl⟩ | ⟨_, rfl, rfl⟩ := hrequest <;>
          obtain rfl | rfl := hp <;> rfl
      rw [hnone, Nat.add_zero, workers, workers, hafter]
    | initiates _ hafter =>
      have hnone : [(Event.entry (.logged .workerInitiates) : Event σ)].countP p = 0 := by
        obtain rfl | rfl := hp <;> rfl
      rw [hnone, Nat.add_zero, workers, workers, hafter]

/-- A move that tells of an adoption makes its thread the worker. -/
theorem Change.worker_of_adoption (change : Change build world move next events)
    (h : Reachable build world) (hadoption : events.any Event.isAdoption = true)
    (hmine : move.thread? = some me) : next.lock.worker = some me := by
  obtain ⟨event, hevent, hshown⟩ := List.any_eq_true.mp hadoption
  obtain ⟨_, hevents⟩ | ⟨name, call?, rfl, hmilestone⟩ := change.routine_or_milestone h
  · cases (hevents event hevent).symm.trans (event.isRoutine_of_isAdoption hshown)
  · rw [Move.thread?_ofThread, Option.some_inj] at hmine
    subst hmine
    cases hmilestone with
    | adopts _ _ _ hafter => exact hafter
    | requests _ _ hrequest =>
      obtain ⟨_, rfl, rfl⟩ | ⟨_, rfl, rfl⟩ := hrequest <;> cases hadoption
    | initiates => cases hadoption

/-- Where there is a worker, a call to become it comes back at once and changes nothing. -/
theorem call?_adopt_of_worker (hidle : (world.thread me).activity = .idle)
    (hroom : world.hasRoomFor [me] = true) (hworker : world.lock.worker.isSome = true) :
    ∃ next, world.call? build me .adopt =
        some (next, [.answered .adopt (.panicked .alreadyAdopted)]) ∧
      next.lock = world.lock ∧ ∀ name, next.thread name = world.thread name := by
  apply call?_of_unchanged rfl hidle hroom
  have hpermits : (world.thread me).permits .adopt = true := by
    rw [ThreadState.permits, hidle]
    rfl
  rw [ThreadState.invoke?, hpermits]
  simp only [hworker, Bool.not_true, Bool.false_eq_true, if_true, if_false]

/-- A thread that was started to become the worker does not wait where there is one. -/
theorem answersWithin_starting {call : Call σ} (h : Reachable build world)
    (hbusy : (world.thread me).activity = .busy call .starting)
    (hworker : world.lock.worker.isSome = true) :
    AnswersWithin build me false (Refused me call) 1 world := by
  intro later stays
  right
  have hlater : (later.thread me).activity = .busy call .starting := by
    rw [stays.thread_eq, hbusy]
  obtain ⟨hcall, _⟩ := (h.fits me).sound.place _ _ hbusy
  have hrecorded : later.lock.worker.isSome = true := stays.advances.worker_isSome hworker
  have hstep : (later.thread me).step? build later.clock me later.lock =
      some (ThreadState.fail later.lock (later.thread me) call .alreadyAdopted []) := by
    rw [ThreadState.step?, hlater]
    simp only [hrecorded, if_true]
  refine goesOn_of_answers (move?_of_step? hlater rfl hstep) (ThreadState.answers_fail ..) ?_
  subst hcall
  exact ⟨rfl, fun _ ↦ by rw [thread_after_self]; rfl⟩

/-- A thread that has waited for the lock to become the worker is told when it gets it. -/
theorem answersWithin_adopting {call : Call σ} (h : Reachable build world)
    (hbusy : (world.thread me).activity = .busy call .adopting)
    (hworker : world.lock.worker.isSome = true) :
    AnswersWithin build me true (Refused me call) 1 world := by
  intro later stays
  have hlater : (later.thread me).activity = .busy call .adopting := by
    rw [stays.thread_eq, hbusy]
  cases hfree : later.lock.mutex.canTake me with
  | false =>
    left
    rw [isHeldUp, hlater, hfree]
    rfl
  | true =>
    right
    obtain ⟨hcall, _⟩ := (h.fits me).sound.place _ _ hbusy
    have hrecorded : later.lock.worker.isSome = true := stays.advances.worker_isSome hworker
    have hstep : (later.thread me).step? build later.clock me later.lock =
        some (ThreadState.fail
          { later.lock with mutex := (later.lock.mutex.take me).giveBack me }
          (later.thread me) call .alreadyAdopted []) := by
      rw [ThreadState.step?, hlater]
      simp only [ThreadState.withLock?_of_canTake hfree, ThreadState.claim, hrecorded, if_true]
    refine goesOn_of_answers (move?_of_step? hlater rfl hstep) (ThreadState.answers_fail ..) ?_
    refine ⟨rfl, ?_⟩
    rintro rfl
    rw [thread_after_self]
    rfl

end

end World

namespace Turn

/-- The turn belongs to a thread's attempt to become the worker, and it does not succeed in it. -/
def FailsToAdopt (turn : Turn σ) (me : Thread) : Prop :=
  turn.events.any Event.isAdoption = false ∧
    (turn.move = .call me .adopt ∨
      turn.move = .step me ∧ (turn.before.thread me).activity.isAdopting = true)

/-- The turn changes nothing but its thread's places in the queue and in its call, and shows nothing
but a refusal. -/
structure LeavesNoTrace (turn : Turn σ) (me : Thread) : Prop where
  lock : ∃ queue, queue.filter (· != me) = turn.before.lock.mutex.queue.filter (· != me) ∧
    turn.after.lock =
      { turn.before.lock with mutex := { turn.before.lock.mutex with queue } }
  self : ∃ activity, turn.after.thread me = { turn.before.thread me with activity }
  others : ∀ other, other ≠ me → turn.after.thread other = turn.before.thread other
  shown : turn.events = [] ∨
    ∃ call, turn.events = [.answered call (call.failure .alreadyAdopted)]

variable {build : Build} {turn : Turn σ} {me : Thread}

theorem FailsToAdopt.exists_rule (h : turn.FailsToAdopt me) (hmove : turn.IsMove build) :
    ∃ call? effect,
      ThreadState.Rule build turn.before.clock me turn.before.lock (turn.before.thread me) call?
        effect ∧
      (turn.before.thread me).Attempts call? ∧ turn.after = turn.before.after me effect ∧
      turn.events = effect.events := by
  obtain hcalls | ⟨hsteps, hadopting⟩ := h.2
  · obtain ⟨effect, rule, _, hafter, hevents⟩ :=
      World.exists_rule_of_call? rfl (hmove.call?_eq hcalls)
    exact ⟨some .adopt, effect, rule, .inl rfl, hafter, hevents⟩
  · obtain ⟨effect, rule, hafter, hevents⟩ :=
      World.exists_rule_of_step? (hmove.step?_eq hsteps)
    exact ⟨none, effect, rule, .inr ⟨rfl, hadopting⟩, hafter, hevents⟩

theorem FailsToAdopt.leavesNoTrace (h : turn.FailsToAdopt me) (hmove : turn.IsMove build)
    (hreach : Reachable build turn.before) : turn.LeavesNoTrace me := by
  obtain ⟨call?, effect, rule, hattempts, hafter, hevents⟩ := h.exists_rule hmove
  have hothers (other : Thread) (hne : other ≠ me) :
      turn.after.thread other = turn.before.thread other := by
    rw [hafter, World.thread_after_of_ne turn.before effect hne]
  have hlock : turn.after.lock = effect.lock := by rw [hafter, World.lock_after]
  have hself : turn.after.thread me = effect.self := by rw [hafter, World.thread_after_self]
  cases rule.attempt (hreach.fits me).sound hattempts with
  | pends queue activity hqueue hmutex hactivity hnone =>
    exact ⟨⟨queue, hqueue, hlock.trans hmutex⟩, ⟨activity, hself.trans hactivity⟩, hothers,
      .inl (hevents.trans hnone)⟩
  | fails call queue activity hqueue hmutex hactivity hanswer =>
    exact ⟨⟨queue, hqueue, hlock.trans hmutex⟩, ⟨activity, hself.trans hactivity⟩, hothers,
      .inr ⟨call, hevents.trans hanswer⟩⟩
  | wins call _ hadopted =>
    -- The answer of the winner is what the turn is said not to show.
    have hshown := h.1
    rw [hevents, hadopted] at hshown
    cases call <;> cases hshown

end Turn

section

variable {build : Build} {start world : World σ} {turns : List (Turn σ)} {me : Thread}

/-- A thread whose only moves are attempts that fail holds what it held before. -/
theorem Run.kept_of_failsToAdopt (run : Run build start turns world) (h : Reachable build start)
    (hfails : ∀ turn ∈ turns, turn.move.thread? = some me → turn.FailsToAdopt me) :
    world.lock.mutex.depth me = start.lock.mutex.depth me ∧
      (world.thread me).guards = (start.thread me).guards ∧
      (world.thread me).session = (start.thread me).session := by
  induction run with
  | nil => exact ⟨rfl, rfl, rfl⟩
  | @snoc turns turn run hmove ih =>
    obtain ⟨hdepth, hguards, hsession⟩ :=
      ih fun earlier hearlier ↦ hfails earlier (List.mem_append_left _ hearlier)
    rw [← hdepth, ← hguards, ← hsession]
    by_cases hmine : turn.move.thread? = some me
    · have hturn := hfails turn (List.mem_append_right _ (List.mem_singleton_self turn)) hmine
      obtain ⟨⟨queue, _, hlock⟩, ⟨activity, hself⟩, _⟩ := hturn.leavesNoTrace hmove (h.run run)
      rw [hlock, hself]
      exact ⟨rfl, rfl, rfl⟩
    · have change := World.change_of_move? hmove
      refine ⟨change.depth_of_ne hmine, ?_⟩
      obtain hkept | ⟨hunknown, title, hborn⟩ := change.thread_of_others hmine
      · rw [hkept]
        exact ⟨rfl, rfl⟩
      · have hdefault : turn.before.thread me = {} := Roster.get_of_not_contains hunknown
        rw [hborn, hdefault]
        exact ⟨rfl, rfl⟩

theorem Run.countP_adoption_le (run : Run build start turns world) (h : Reachable build start)
    {p : Event σ → Bool} (hp : p = Event.isAdoption ∨ p = Event.isAdoptionLine) :
    (shownIn turns).countP p ≤ 1 := by
  have hspent := run.spent_add_countP_le h p World.workers fun turn hturn hmove ↦
    Nat.le_of_eq ((World.change_of_move? hmove).workers_add_countP hturn hp)
  have hbound : world.workers ≤ 1 := by
    unfold World.workers
    split <;> decide
  omega

/-- A call to become the worker is answered in one of two ways. -/
theorem Turn.adopt_answers {turn : Turn σ} (hmove : turn.IsMove build)
    (h : Reachable build turn.before) {call : Call σ} (hcall : call = .adopt ∨ call = .start)
    {reply : Answer σ} (hanswers : turn.Answers me call reply) :
    reply = ThreadState.adoptedAnswer call ∨ World.Refused me call turn.after reply := by
  have hsound := (h.fits me).sound
  have hspawn : call.isSpawn = false := by
    obtain rfl | rfl := hcall <;> rfl
  obtain ⟨call?, effect, rule, hin, _, hafter, hevents⟩ :=
    Turn.exists_rule_of_answers hmove hsound hspawn hanswers
  have hattempts : (turn.before.thread me).Attempts call? := by
    obtain rfl | ⟨rfl, point, hbusy⟩ := hin
    · exact .inl (congrArg some (hcall.resolve_right rule.ne_start))
    · right
      rw [hbusy]
      obtain rfl | rfl := hcall <;> exact ⟨rfl, rfl⟩
  have hevent : .answered call reply ∈ effect.events := by
    rw [← hevents]
    exact hanswers.2
  cases rule.attempt hsound hattempts with
  | pends _ _ _ _ _ hnone =>
    rw [hnone] at hevent
    cases hevent
  | fails made _ activity _ _ hself hone hactivity =>
    rw [hone] at hevent
    cases List.mem_singleton.mp hevent
    refine .inr ⟨rfl, fun hstart ↦ ?_⟩
    rw [hafter, World.thread_after_self, hself]
    exact hactivity hstart
  | wins made _ htwo =>
    rw [htwo] at hevent
    cases hevent with
    | tail _ hevent =>
      cases List.mem_singleton.mp hevent
      exact .inl rfl

/-- On one lock at most one call ever makes its thread the worker, and the line that tells of it is
logged at most once; from then on that thread and no other is the worker. Every other such call
panics if it is answered: at once where there is a worker already, as soon as it has the lock where
it has waited. A thread whose moves are attempts that fail holds what it held before, and none of
these moves changes anything but the thread's own places in the queue and in its call. -/
theorem one_worker_for_ever (hnew : start.IsNew) (run : Run build start turns world) :
    ((shownIn turns).countP Event.isAdoption ≤ 1 ∧
      (shownIn turns).countP Event.isAdoptionLine ≤ 1) ∧
    (∀ turn ∈ turns, ∀ me, turn.move.thread? = some me →
      turn.events.any Event.isAdoption = true →
      world.lock.worker = some me ∧ ∀ name, world.lock.isWorker name = true ↔ name = me) ∧
    (∀ turn ∈ turns, ∀ me reply,
      (turn.Answers me .adopt reply → reply = .adopted ∨ reply = .panicked .alreadyAdopted) ∧
      (turn.Answers me .start reply → reply = .started ∨ reply = .finished ∧
        (turn.after.thread me).activity = .finished (some .alreadyAdopted))) ∧
    Panic.alreadyAdopted.message? = some "Mainlock: a worker thread has already been adopted" ∧
    (world.lock.worker.isSome = true → ∀ me,
      ((world.thread me).activity = .idle → world.hasRoomFor [me] = true →
        ∃ next, world.call? build me .adopt =
            some (next, [.answered .adopt (.panicked .alreadyAdopted)]) ∧
          next.lock = world.lock ∧ ∀ name, next.thread name = world.thread name) ∧
      (∀ call, (world.thread me).activity = .busy call .starting →
        AnswersWithin build me false (World.Refused me call) 1 world) ∧
      (∀ call, (world.thread me).activity = .busy call .adopting →
        AnswersWithin build me true (World.Refused me call) 1 world)) ∧
    (∀ me stretch last, Run build world stretch last →
      (∀ turn ∈ stretch, turn.move.thread? = some me → turn.FailsToAdopt me) →
      last.lock.mutex.depth me = world.lock.mutex.depth me ∧
      (last.thread me).guards = (world.thread me).guards ∧
      (last.thread me).session = (world.thread me).session ∧
      ((last.thread me).activity.wantsLock = false → me ∉ last.lock.mutex.queue) ∧
      ∀ turn ∈ stretch, turn.move.thread? = some me → turn.LeavesNoTrace me) := by
  have hreach : Reachable build world := run.reachable hnew
  have hstart : Reachable build start := Run.nil.reachable hnew
  refine ⟨⟨?_, ?_⟩, ?_, ?_, rfl, ?_, ?_⟩
  · exact run.countP_adoption_le hstart (.inl rfl)
  · exact run.countP_adoption_le hstart (.inr rfl)
  · intro turn hmem me hmine hadoption
    obtain ⟨_, _, _, hbefore, hmove, hlater⟩ := run.exists_split hmem
    have hworker : world.lock.worker = some me := by
      apply hlater.advances.worker
      have change := World.change_of_move? hmove
      exact change.worker_of_adoption (hbefore.reachable hnew) hadoption hmine
    refine ⟨hworker, fun name ↦ ?_⟩
    rw [Lock.isWorker, hworker, beq_iff_eq, Option.some_inj]
    exact eq_comm
  · intro turn hmem me reply
    obtain ⟨hturn, hmove⟩ := run.isMove_of_mem hstart hmem
    constructor
    · intro hanswers
      obtain hadopted | hrefused := Turn.adopt_answers hmove hturn (.inl rfl) hanswers
      · exact .inl hadopted
      · exact .inr hrefused.1
    · intro hanswers
      obtain hstarted | hrefused := Turn.adopt_answers hmove hturn (.inr rfl) hanswers
      · exact .inl hstarted
      · exact .inr ⟨hrefused.1, hrefused.2 rfl⟩
  · intro hworker me
    refine ⟨fun hidle hroom ↦ World.call?_adopt_of_worker hidle hroom hworker, ?_, ?_⟩
    · exact fun call hbusy ↦ World.answersWithin_starting hreach hbusy hworker
    · exact fun call hbusy ↦ World.answersWithin_adopting hreach hbusy hworker
  · intro me stretch last more hfails
    obtain ⟨hdepth, hguards, hsession⟩ := more.kept_of_failsToAdopt hreach hfails
    refine ⟨hdepth, hguards, hsession, (hreach.run more).inLine.not_mem_of_away, ?_⟩
    intro turn hmem hmine
    obtain ⟨hturn, hmove⟩ := more.isMove_of_mem hreach hmem
    exact (hfails turn hmem hmine).leavesNoTrace hmove hturn

/-- Two threads queue to become the worker; the second is refused when it gets the lock, and a third
that comes later without waiting. -/
theorem second_and_third_adoption_refused :
    ∃ (start world : World Unit) (turns : List (Turn Unit)), Run .checked start turns world ∧
      (∃ turn ∈ turns, turn.before.lock.mutex.queue = ["first", "second"] ∧
        turn.Answers "first" .adopt .adopted) ∧
      (∃ turn ∈ turns, turn.before.lock.mutex.queue = ["second"] ∧
        turn.Answers "second" .adopt (.panicked .alreadyAdopted)) ∧
      (∃ turn ∈ turns, turn.move = .call "third" .adopt ∧
        turn.Answers "third" .adopt (.panicked .alreadyAdopted)) ∧
      (shownIn turns).countP Event.isAdoption ≤ 1 ∧
      (world.lock.worker = some "first" ∧
        ∀ name, world.lock.isWorker name = true ↔ name = "first") := by
  let start : World Unit := { lock := .standard .checked () }
  let moves : List (Move Unit) :=
    [.call "holder" .tryAcquire, .call "first" .adopt, .step "first", .call "second" .adopt,
      .step "second", .call "holder" .release, .step "first", .call "first" .openWindow,
      .step "second", .call "third" .adopt]
  have hplay : ∃ turns world, start.play? .checked moves = some (turns, world) ∧
      ∃ won lost late, turns[6]? = some won ∧ turns[8]? = some lost ∧ turns[9]? = some late ∧
        (won.before.lock.mutex.queue = ["first", "second"] ∧
          won.Answers "first" .adopt .adopted ∧ won.events.any Event.isAdoption = true) ∧
        (lost.before.lock.mutex.queue = ["second"] ∧
          lost.Answers "second" .adopt (.panicked .alreadyAdopted)) ∧
        (late.move = .call "third" .adopt ∧
          late.Answers "third" .adopt (.panicked .alreadyAdopted)) := by
    refine ⟨_, _, rfl, _, _, _, rfl, rfl, rfl, ⟨rfl, ⟨rfl, .tail _ (.head _)⟩, rfl⟩, ?_, ?_⟩
    · exact ⟨rfl, rfl, .head _⟩
    · exact ⟨rfl, rfl, .head _⟩
  obtain ⟨turns, world, hturns, won, lost, late, hwon, hlost, hlate, hfirst, hsecond, hthird⟩ :=
    hplay
  have hrun := run_of_play? hturns
  obtain ⟨⟨honce, _⟩, hworker, _⟩ := one_worker_for_ever ⟨.standard .checked (), rfl⟩ hrun
  have hmem := List.mem_of_getElem? hwon
  refine ⟨start, world, turns, hrun, ⟨won, hmem, hfirst.1, hfirst.2.1⟩,
    ⟨lost, List.mem_of_getElem? hlost, hsecond⟩, ⟨late, List.mem_of_getElem? hlate, hthird⟩,
    honce, ?_⟩
  exact hworker won hmem "first" hfirst.2.1.1 hfirst.2.2

end

end YieldLock
