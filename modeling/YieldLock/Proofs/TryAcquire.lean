import YieldLock.Proofs.Acquiring

/-!
# Acquiring and trying to acquire

A thread that acquires the lock while nobody else moves gets it at once, or it is
held up and never gets it. Which of the two it is can be read off the mutex, and
trying to acquire reads it off. Main statements: `Alone.acquisition`, how far an
acquisition can come, and `tryAcquire_agrees_with_acquire`, what the two calls made
from the same world have in common.
-/

namespace YieldLock

variable {σ : Type}

theorem Roster.set_set {α : Type} (roster : Roster α) (thread : Thread) (first second : α) :
    (roster.set thread first).set thread second = roster.set thread second := by
  obtain ⟨entries⟩ := roster
  simp only [set, Roster.mk.injEq]
  induction entries with
  | nil => simp [setIn]
  | cons head rest ih =>
    obtain ⟨name, old⟩ := head
    by_cases hname : name = thread
    · simp [setIn, hname]
    · simp [setIn, hname, ih]

/-- What a call comes to that a thread makes and goes on with while nobody else moves. Time may
pass. -/
inductive Alone (build : Build) (me : Thread) (call : Call σ) (world : World σ) :
    World σ → List (Event σ) → Prop where
  | call {next : World σ} {events : List (Event σ)}
      (hcall : world.call? build me call = some (next, events)) :
      Alone build me call world next events
  | step {middle next : World σ} {earlier events : List (Event σ)}
      (alone : Alone build me call world middle earlier)
      (hstep : middle.step? build me = some (next, events)) :
      Alone build me call world next (earlier ++ events)
  | pass {middle : World σ} {events : List (Event σ)} (nanos : Nat)
      (alone : Alone build me call world middle events) :
      Alone build me call world { middle with clock := middle.clock + nanos } events

/-- The lock and the place of a thread that has asked for the lock and does not have it yet. Only
threads other than the worker are counted. -/
inductive Lock.Awaits (lock : Lock σ) (me : Thread) : Lock σ → Point → Prop where
  | worker (hworker : lock.isWorker me = true) : Awaits lock me lock .reentering
  | other (hother : lock.isWorker me = false) (watch : Stopwatch) :
      Awaits lock me { lock with waiters := lock.waiters.enter } (.waiting watch)

/-- The worker may be warned that it acquires a lock of its own. -/
def Lock.warnings (lock : Lock σ) (me : Thread) : List (Event σ) :=
  if lock.isWorker me && lock.config.warnOnWorkerAcquire then [.entry (.logged .workerReenters)]
  else []

/-- The lock with other figures about the acquisitions that were counted. -/
def Lock.withFigures (lock : Lock σ) (acquisitions longestWait : UInt64) : Lock σ :=
  { lock with stats := { lock.stats with acquisitions, longestWait } }

section

variable {build : Build} {now : Nat} {me : Thread} {lock after : Lock σ} {self : ThreadState σ}
  {point : Point}

theorem Lock.Awaits.mutex_eq (awaits : lock.Awaits me after point) :
    after.mutex = lock.mutex := by
  cases awaits <;> rfl

theorem Lock.Awaits.wantsLock (awaits : lock.Awaits me after point) :
    point.wantsLock = true := by
  cases awaits <;> rfl

theorem Lock.Awaits.isJoining_eq (awaits : lock.Awaits me after point) :
    point.isJoining = false := by
  cases awaits <;> rfl

/-- A thread that waits and can take the lock has it after one step. -/
theorem Lock.Awaits.step?_of_canTake (awaits : lock.Awaits me after point)
    (hbusy : self.activity = .busy .acquire point) (hfree : lock.mutex.canTake me = true)
    (hmatched : lock.isWorker me = false → lock.waiters.enter.isMatched = true) :
    ∃ acquisitions longestWait, self.step? build now me after =
      some (ThreadState.answer
        (Lock.withFigures { lock with mutex := lock.mutex.take me } acquisitions longestWait)
        { self with guards := self.guards + 1 } .acquire .acquired []) := by
  unfold ThreadState.step?
  rw [hbusy]
  cases awaits with
  | worker => exact ⟨_, _, ThreadState.withLock?_of_canTake hfree _⟩
  | other hother watch =>
    let waited := watch.elapsedMicros now
    refine ⟨lock.stats.acquisitions + 1, max lock.stats.longestWait waited, ?_⟩
    have hcounted : Mutex.canTake { lock with waiters := lock.waiters.enter }.mutex me = true :=
      hfree
    simp only [ThreadState.withLock?_of_canTake hcounted, ThreadState.obtain, hmatched hother,
      Waiters.leave_enter, Bool.not_true, Bool.and_false, Bool.false_eq_true, if_false]
    rfl

/-- A thread that waits and cannot take the lock joins the queue once. -/
theorem Lock.Awaits.step?_of_held {mutex : Mutex} (awaits : lock.Awaits me after point)
    (hbusy : self.activity = .busy .acquire point) (hheld : mutex.canTake me = false) :
    self.step? build now me { after with mutex } =
      ThreadState.park? me { after with mutex } self := by
  unfold ThreadState.step?
  rw [hbusy]
  cases awaits <;> exact if_neg (by rw [hheld]; nofun)

end

namespace World

/-- The world with another lock, another state of one thread and another time. -/
def seenBy (world : World σ) (me : Thread) (lock : Lock σ) (self : ThreadState σ) (clock : Nat) :
    World σ where
  lock
  threads := world.threads.set me self
  clock

/-- How far a thread has come in an acquisition that it makes alone. -/
inductive Acquisition (world : World σ) (me : Thread) (clock : Nat) :
    World σ → List (Event σ) → Prop where
  | waiting {lock : Lock σ} {point : Point} {mutex : Mutex}
      (awaits : world.lock.Awaits me lock point)
      (hmutex : mutex = lock.mutex ∨
        world.lock.mutex.canTake me = false ∧ mutex = lock.mutex.wait me) :
      Acquisition world me clock
        (world.seenBy me { lock with mutex }
          { world.thread me with activity := .busy .acquire point } clock)
        (world.lock.warnings me)
  | taken (acquisitions longestWait : UInt64) (hfree : world.lock.mutex.canTake me = true) :
      Acquisition world me clock
        (world.seenBy me
          (Lock.withFigures { world.lock with mutex := world.lock.mutex.take me }
            acquisitions longestWait)
          { world.thread me with guards := (world.thread me).guards + 1, activity := .idle } clock)
        (world.lock.warnings me ++ [.answered .acquire .acquired])

section

variable {build : Build} {world middle next : World σ} {me : Thread} {lock : Lock σ}
  {self : ThreadState σ} {clock : Nat} {events : List (Event σ)}

@[simp] theorem thread_seenBy : (world.seenBy me lock self clock).thread me = self :=
  Roster.get_set_self ..

theorem thread_seenBy_of_ne {name : Thread} (hname : name ≠ me) :
    (world.seenBy me lock self clock).thread name = world.thread name :=
  Roster.get_set_of_ne _ _ hname

theorem after_seenBy (effect : Effect σ) :
    (world.seenBy me lock self clock).after me effect =
      world.seenBy me effect.lock effect.self clock := by
  rw [after, seenBy, Roster.set_set]
  rfl

/-- A thread that waits for the lock makes its next step by itself. -/
theorem step?_seenBy {call : Call σ} {point : Point} (hbusy : self.activity = .busy call point)
    (hpoint : point.isJoining = false) :
    (world.seenBy me lock self clock).step? build me =
      (self.step? build clock me lock).map fun effect ↦
        (world.seenBy me effect.lock effect.self clock, effect.events) := by
  rw [step?_of_busy (by rw [thread_seenBy, hbusy]) hpoint, thread_seenBy]
  simp only [after_seenBy]
  rfl

/-- A thread that waits gets the lock if it can be taken, and otherwise it waits on. -/
theorem Acquisition.step
    (hmatched : world.lock.isWorker me = false → world.lock.waiters.enter.isMatched = true)
    {earlier : List (Event σ)} (h : world.Acquisition me clock middle earlier)
    (hstep : middle.step? build me = some (next, events)) :
    world.Acquisition me clock next (earlier ++ events) := by
  cases h with
  | taken =>
    -- The call has been answered, and an idle thread makes no further step.
    simp [step?, ThreadState.step?] at hstep
  | @waiting lock point mutex awaits hmutex =>
    let waits : ThreadState σ := { world.thread me with activity := .busy .acquire point }
    have hbusy : waits.activity = .busy .acquire point := rfl
    rw [step?_seenBy hbusy awaits.isJoining_eq] at hstep
    obtain ⟨effect, heffect, hnext⟩ := Option.map_eq_some_iff.mp hstep
    cases hnext
    cases hfree : world.lock.mutex.canTake me with
    | true =>
      obtain rfl : mutex = lock.mutex := by
        refine hmutex.resolve_right fun hparked ↦ ?_
        cases hfree.symm.trans hparked.1
      obtain ⟨acquisitions, longestWait, htaken⟩ := awaits.step?_of_canTake hbusy hfree hmatched
      cases htaken.symm.trans heffect
      exact .taken acquisitions longestWait hfree
    | false =>
      have hheld : mutex.canTake me = false := by
        obtain rfl | ⟨_, rfl⟩ := hmutex
        · rwa [awaits.mutex_eq]
        · exact awaits.mutex_eq ▸ hfree
      rw [awaits.step?_of_held hbusy hheld] at heffect
      unfold ThreadState.park? at heffect
      split at heffect
      · cases heffect
      · rename_i hqueue
        cases heffect
        rw [List.append_nil]
        obtain rfl | ⟨_, rfl⟩ := hmutex
        · exact .waiting awaits (.inr ⟨hfree, rfl⟩)
        · simp [Mutex.isWaiting, Mutex.wait] at hqueue

theorem call?_acquire (build : Build) (hidle : (world.thread me).activity = .idle)
    (hroom : world.hasRoomFor [me] = true) :
    ∃ lock point, world.lock.Awaits me lock point ∧
      world.call? build me .acquire = some
        (world.seenBy me lock { world.thread me with activity := .busy .acquire point } world.clock,
          world.lock.warnings me) := by
  rw [call?_of_not_spawn world me rfl, if_pos hroom]
  unfold ThreadState.invoke?
  cases hworker : world.lock.isWorker me with
  | true =>
    refine ⟨_, _, .worker hworker, ?_⟩
    simp only [ThreadState.permits, hidle, Lock.warnings, hworker]
    cases world.lock.config.warnOnWorkerAcquire <;> rfl
  | false =>
    refine ⟨_, _, .other hworker ⟨world.clock⟩, ?_⟩
    simp only [ThreadState.permits, hidle, Lock.warnings, hworker]
    rfl

/-- A thread that has entered is counted, so it has entered before it leaves. -/
theorem isMatched_enter (h : Reachable build world) (hidle : (world.thread me).activity = .idle)
    (hroom : world.hasRoomFor [me] = true) (hother : world.lock.isWorker me = false) :
    world.lock.waiters.enter.isMatched = true := by
  obtain ⟨lock, point, awaits, hcall⟩ := call?_acquire build hidle hroom
  have hmove : world.move? build (.call me .acquire) = some _ := hcall
  cases awaits with
  | worker hworker => cases hother.symm.trans hworker
  | other =>
    refine (h.move hmove).waiters_isSet (?_ : Activity.isCounted (World.thread _ me).activity = _)
    rw [thread_seenBy]
    rfl

/-- An acquisition of a thread alone has got the lock at once or never does. -/
theorem acquisition_of_alone (h : Reachable build world)
    (hidle : (world.thread me).activity = .idle) (hroom : world.hasRoomFor [me] = true)
    (alone : Alone build me .acquire world next events) :
    ∃ clock, world.Acquisition me clock next events := by
  induction alone with
  | call hcall =>
    obtain ⟨lock, point, awaits, hbegun⟩ := call?_acquire build hidle hroom
    cases hbegun.symm.trans hcall
    exact ⟨world.clock, .waiting awaits (.inl rfl)⟩
  | step _ hstep ih =>
    obtain ⟨clock, hacquires⟩ := ih
    exact ⟨clock, hacquires.step (isMatched_enter h hidle hroom) hstep⟩
  | pass nanos _ ih =>
    obtain ⟨clock, hacquires⟩ := ih
    refine ⟨clock + nanos, ?_⟩
    cases hacquires with
    | waiting awaits hmutex => exact .waiting awaits hmutex
    | taken acquisitions longestWait hfree => exact .taken acquisitions longestWait hfree

/-- Trying to acquire takes the lock if it can be taken, and otherwise changes nothing. -/
theorem call?_tryAcquire (build : Build) (hidle : (world.thread me).activity = .idle)
    (hroom : world.hasRoomFor [me] = true) :
    world.call? build me .tryAcquire = some
      (if world.lock.mutex.canTake me then
        (world.seenBy me { world.lock with mutex := world.lock.mutex.take me }
          { world.thread me with guards := (world.thread me).guards + 1, activity := .idle }
          world.clock, [.answered .tryAcquire .acquired])
      else
        (world.seenBy me world.lock (world.thread me) world.clock,
          [.answered .tryAcquire .refused])) := by
  have hself : { world.thread me with activity := .idle } = world.thread me := by rw [← hidle]
  rw [call?_of_not_spawn world me rfl, if_pos hroom]
  simp only [ThreadState.invoke?, ThreadState.permits, hidle, Activity.isIdle, Bool.not_true,
    Bool.and_self, Bool.false_eq_true, if_false]
  split
  · rfl
  · simp only [ThreadState.answer, hself]
    rfl

theorem Acquisition.of_answered {reply : Answer σ} (h : world.Acquisition me clock next events)
    (hanswered : .answered .acquire reply ∈ events) :
    ∃ acquisitions longestWait, world.lock.mutex.canTake me = true ∧ reply = .acquired ∧
      events = world.lock.warnings me ++ [.answered .acquire .acquired] ∧
      next = world.seenBy me
        (Lock.withFigures { world.lock with mutex := world.lock.mutex.take me }
          acquisitions longestWait)
        { world.thread me with guards := (world.thread me).guards + 1, activity := .idle }
        clock := by
  have hwarned (reply : Answer σ) : .answered .acquire reply ∉ world.lock.warnings me := by
    unfold Lock.warnings
    split <;> simp
  cases h with
  | waiting => exact absurd hanswered (hwarned reply)
  | taken acquisitions longestWait hfree =>
    rw [List.mem_append, List.mem_singleton] at hanswered
    obtain hwarning | hanswer := hanswered
    · exact absurd hwarning (hwarned reply)
    · cases hanswer
      exact ⟨acquisitions, longestWait, hfree, rfl, rfl, rfl⟩

theorem Acquisition.of_heldUp (h : world.Acquisition me clock next events)
    (hheld : next.isHeldUp me = true) : world.lock.mutex.canTake me = false := by
  cases h with
  | taken =>
    rw [isHeldUp, thread_seenBy] at hheld
    cases hheld
  | waiting awaits hmutex =>
    obtain rfl | ⟨hfalse, _⟩ := hmutex
    · rw [isHeldUp, Bool.and_eq_true, Bool.not_eq_true'] at hheld
      rw [← awaits.mutex_eq]
      exact hheld.2
    · exact hfalse

theorem exists_alone_acquire (h : Reachable build world)
    (hidle : (world.thread me).activity = .idle) (hroom : world.hasRoomFor [me] = true) :
    ∃ next events, Alone build me .acquire world next events ∧
      (.answered .acquire .acquired ∈ events ∨ next.isHeldUp me = true) := by
  obtain ⟨lock, point, awaits, hcall⟩ := call?_acquire build hidle hroom
  let waits : ThreadState σ := { world.thread me with activity := .busy .acquire point }
  have hbusy : waits.activity = .busy .acquire point := rfl
  cases hfree : world.lock.mutex.canTake me with
  | true =>
    obtain ⟨_, _, htaken⟩ :=
      awaits.step?_of_canTake hbusy hfree (isMatched_enter h hidle hroom)
    have hstep : World.step? build (world.seenBy me lock waits world.clock) me = _ :=
      step?_seenBy hbusy awaits.isJoining_eq
    rw [htaken] at hstep
    exact ⟨_, _, .step (.call hcall) hstep, .inl (by simp [ThreadState.answer])⟩
  | false =>
    refine ⟨_, _, .call hcall, .inr ?_⟩
    rw [isHeldUp, thread_seenBy, Bool.and_eq_true, Bool.not_eq_true']
    exact ⟨awaits.wantsLock, by rw [← hfree, ← awaits.mutex_eq]; rfl⟩

end

end World

/-- A thread that acquires the lock while nobody else moves gets it or is held up. If it gets it, it
would have got it by trying too, and but for the figures about acquisitions the lock and all threads
are as they would have been then; beside the answer there is at most the warning of a worker. If it
is held up, trying is refused and leaves the lock and all threads as they were. -/
theorem tryAcquire_agrees_with_acquire {build : Build} {world : World σ} {me : Thread}
    (h : Reachable build world) (hidle : (world.thread me).activity = .idle)
    (hroom : world.hasRoomFor [me] = true) :
    (∃ next events, Alone build me .acquire world next events ∧
      (.answered .acquire .acquired ∈ events ∨ next.isHeldUp me = true)) ∧
    (∀ next events reply, Alone build me .acquire world next events →
      .answered .acquire reply ∈ events →
      ∃ after acquisitions longestWait,
        world.call? build me .tryAcquire = some (after, [.answered .tryAcquire .acquired]) ∧
        reply = .acquired ∧
        events = world.lock.warnings me ++ [.answered .acquire .acquired] ∧
        next.lock = after.lock.withFigures acquisitions longestWait ∧
        next.threads = after.threads) ∧
    (∀ next events, Alone build me .acquire world next events → next.isHeldUp me = true →
      ∃ after,
        world.call? build me .tryAcquire = some (after, [.answered .tryAcquire .refused]) ∧
        after.lock = world.lock ∧ after.clock = world.clock ∧
        ∀ name, after.thread name = world.thread name) := by
  have htry := World.call?_tryAcquire build hidle hroom
  refine ⟨World.exists_alone_acquire h hidle hroom, ?_, ?_⟩
  · intro next events reply alone hanswered
    obtain ⟨clock, hacquires⟩ := World.acquisition_of_alone h hidle hroom alone
    obtain ⟨acquisitions, longestWait, hfree, hreply, hevents, rfl⟩ :=
      hacquires.of_answered hanswered
    rw [if_pos hfree] at htry
    exact ⟨_, acquisitions, longestWait, htry, hreply, hevents, rfl, rfl⟩
  · intro next events alone hheld
    obtain ⟨clock, hacquires⟩ := World.acquisition_of_alone h hidle hroom alone
    rw [if_neg (by rw [hacquires.of_heldUp hheld]; nofun)] at htry
    refine ⟨_, htry, rfl, rfl, fun name ↦ ?_⟩
    by_cases hname : name = me
    · rw [hname, World.thread_seenBy]
    · exact World.thread_seenBy_of_ne hname

/-- While the worker sleeps in a yield, the thread that got the lock acquires it a second time, and
a thread that comes after another in the queue is held up. -/
theorem owner_and_latecomer_beside_sleeper :
    ∃ world : World Unit, world.IsSettled .checked ∧
      (world.thread "worker").activity.isSleeping = true ∧ world.lock.mutex.queue = ["second"] ∧
      (∃ next events after acquisitions longestWait,
        Alone .checked "first" .acquire world next events ∧
        world.call? .checked "first" .tryAcquire =
          some (after, [.answered .tryAcquire .acquired]) ∧
        next.lock = after.lock.withFigures acquisitions longestWait ∧
        next.lock.mutex.depth "first" = 2) ∧
      ∃ next events after, Alone .checked "third" .acquire world next events ∧
        next.isHeldUp "third" = true ∧
        world.call? .checked "third" .tryAcquire =
          some (after, [.answered .tryAcquire .refused]) ∧
        after.lock = world.lock := by
  let start : World Unit := { lock := .standard .checked () }
  let moves : List (Move Unit) :=
    [.call "worker" .adopt, .step "worker", .call "first" .acquire, .step "first",
      .call "worker" .yieldNow, .step "worker", .step "first", .call "second" .acquire,
      .step "second"]
  have hplay : ∃ ready ∈ start.play? .checked moves, ready.2.IsSettled .checked ∧
      (ready.2.thread "worker").activity.isSleeping = true ∧
      ready.2.lock.mutex.queue = ["second"] ∧
      (ready.2.thread "first").activity = .idle ∧ (ready.2.thread "third").activity = .idle ∧
      ready.2.hasRoomFor ["first"] = true ∧ ready.2.hasRoomFor ["third"] = true ∧
      (∃ begun ∈ ready.2.call? .checked "first" .acquire,
        ∃ done ∈ begun.1.step? .checked "first",
          .answered .acquire .acquired ∈ begun.2 ++ done.2 ∧
          done.1.lock.mutex.depth "first" = 2) ∧
      ∃ begun ∈ ready.2.call? .checked "third" .acquire,
        begun.1.isHeldUp "third" = true := by
    decide +kernel
  obtain ⟨⟨turns, world⟩, hturns, hsettled, hsleeps, hqueue, hfirst, hthird, hroom, hroom', hgets,
    hwaits⟩ := hplay
  have hreach : Reachable .checked world :=
    (run_of_play? hturns).reachable ⟨.standard .checked (), rfl⟩
  refine ⟨world, hsettled, hsleeps, hqueue, ?_, ?_⟩
  · obtain ⟨⟨begun, earlier⟩, hcall, ⟨next, events⟩, hstep, hanswered, hdepth⟩ := hgets
    have alone : Alone .checked "first" .acquire world next (earlier ++ events) :=
      .step (.call hcall) hstep
    obtain ⟨after, acquisitions, longestWait, htry, _, _, hlock, _⟩ :=
      (tryAcquire_agrees_with_acquire hreach hfirst hroom).2.1 _ _ _ alone hanswered
    exact ⟨next, _, after, acquisitions, longestWait, alone, htry, hlock, hdepth⟩
  · obtain ⟨⟨next, events⟩, hcall, hheld⟩ := hwaits
    have alone : Alone .checked "third" .acquire world next events := .call hcall
    obtain ⟨after, htry, hlock, _⟩ :=
      (tryAcquire_agrees_with_acquire hreach hthird hroom').2.2 _ _ alone hheld
    exact ⟨next, events, after, alone, hheld, htry, hlock⟩

end YieldLock
