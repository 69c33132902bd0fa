import YieldLock.Thread.State

/-!
# The steps of one thread

A call runs in steps. One step makes at most one access to the shared state that
another thread could notice the moment of; it may take the lock before that
access and give it back after it, and it counts and logs as it goes. That others
may move between these accesses all the same is shown in `Proofs.Merging`; only a
thread that comes too late to become the worker takes the lock and gives it back
unseen, and a look for shutdown is made when the lock is taken. A thread reads no
other thread's state, so a step is a function of the lock and of the thread that
makes it. A step that cannot be made has no effect to offer.
-/

namespace YieldLock

/-- The lock and the thread after a step, and what the step showed. -/
structure Effect (σ : Type) where
  lock : Lock σ
  self : ThreadState σ
  events : List (Event σ)
  deriving DecidableEq, Repr

namespace Effect

variable {σ : Type}

/-- The answers that a step gives. -/
def answers (effect : Effect σ) : List (Answer σ) := effect.events.filterMap Event.answer?

@[simp] theorem answers_tornDown (lock : Lock σ) (self : ThreadState σ) (teardown : Teardown)
    (events : List (Event σ)) :
    (Effect.mk lock self (.tornDown teardown :: events)).answers =
      (Effect.mk lock self events).answers := rfl

@[simp] theorem answers_entries (lock : Lock σ) (self : ThreadState σ) (entries : List Entry) :
    (Effect.mk lock self (entries.map .entry)).answers = [] :=
  Event.filterMap_answer?_entries entries

end Effect

namespace ThreadState

variable {σ : Type}

/-- The call is answered and the thread is idle again. -/
def answer (lock : Lock σ) (self : ThreadState σ) (call : Call σ) (answer : Answer σ)
    (entries : List Entry) : Effect σ where
  lock
  self := { self with activity := .idle }
  events := entries.map .entry ++ [.answered call answer]

/-- The call goes on from another point. -/
def goOn (lock : Lock σ) (self : ThreadState σ) (call : Call σ) (point : Point)
    (entries : List Entry) : Effect σ where
  lock
  self := { self with activity := .busy call point }
  events := entries.map .entry

/-- The call ends the life of the thread. -/
def finish (lock : Lock σ) (self : ThreadState σ) (call : Call σ) (outcome : Option Panic)
    (entries : List Entry) : Effect σ where
  lock
  self := { self with session := none, activity := .finished outcome }
  events := entries.map .entry ++ [.answered call .finished]

/-- The session has ended, and with it the call that ended it. -/
def conclude (lock : Lock σ) (self : ThreadState σ) (call : Call σ) : Effect σ :=
  match call with
  | .dropSession => answer lock { self with session := none } call .dropped []
  | .unwindSession panic => answer lock { self with session := none } call (.panicked panic) []
  | .finish outcome => finish lock self call outcome []
  | _ => answer lock self call (.flow .exit) []

/-- The call ends in a panic; a session that was being dropped is gone all the same. -/
def fail (lock : Lock σ) (self : ThreadState σ) (call : Call σ) (panic : Panic)
    (entries : List Entry) : Effect σ :=
  match call with
  | .dropSession => answer lock { self with session := none } call (.panicked panic) entries
  | .start | .finish _ => finish lock self call (some panic) entries
  | _ => answer lock self call (.panicked panic) entries

/-- At a check point the worker ends its session if it has to and goes on if not. -/
def check (me : Thread) (lock : Lock σ) (self : ThreadState σ) (call : Call σ)
    (entries : List Entry) : Effect σ :=
  if lock.shouldExit me then goOn lock self call .lowering entries
  else answer lock self call (.flow .proceed) entries

/-- A session that has ended before needs no further step to end. -/
def leave (lock : Lock σ) (self : ThreadState σ) (call : Call σ) : Effect σ :=
  match self.session with
  | some { phase := .running, .. } | some { phase := .yielding, .. } =>
    goOn lock self call .lowering []
  | _ => conclude lock self call

/-- Reaches the guarded value through a guard or through the session's own level. -/
def reach (lock : Lock σ) (self : ThreadState σ) (call : Call σ) (access : Access)
    (after : Lock σ) : Effect σ :=
  match access, self.session with
  | .session, some { phase, holds := false } =>
    answer lock self call (.panicked (.notHolding phase)) []
  | _, _ => answer after self call (.value lock.value) []

/-- The first step of a yield. -/
def beginYield (build : Build) (me : Thread) (lock : Lock σ) (self : ThreadState σ)
    (session : Session) : Effect σ :=
  match session.phase with
  | .terminated => answer lock self .yieldNow (.flow .exit) [.logged .keptRunning]
  | .yielding =>
    if build.isChecked then answer lock self .yieldNow (.panicked .yieldInWindow) []
    else answer lock self .yieldNow (.flow .proceed) []
  | .running =>
    let counted := { lock with stats := lock.stats.countYield }
    if lock.shouldExit me then goOn counted self .yieldNow .lowering []
    else goOn counted self .yieldNow .polling []

/-- Opening a window is a single step: the level is given up before the assertion is made. -/
def openWindow (build : Build) (me : Thread) (lock : Lock σ) (self : ThreadState σ)
    (session : Session) : Effect σ :=
  match session.phase with
  | .terminated => answer lock self .openWindow .opened [.logged .windowAfterExit]
  | .yielding =>
    if build.isChecked then answer lock self .openWindow (.panicked .windowOpenTwice) []
    else answer lock self .openWindow .opened []
  | .running =>
    let mutex := lock.mutex.giveBackIf me session.holds
    let freed := { lock with mutex }
    if build.isChecked && mutex.isHeldBy me then
      answer freed { self with session := some { session with holds := false } } .openWindow
        (.panicked .nestedWindow) []
    else
      answer freed { self with session := some { phase := .yielding, holds := false } }
        .openWindow .opened []

/-- The first step of closing a window. -/
def beginClose (build : Build) (me : Thread) (lock : Lock σ) (self : ThreadState σ)
    (session : Session) : Effect σ :=
  match session.phase with
  | .terminated => answer lock self .closeWindow (.flow .exit) [.logged .keptRunning]
  | .yielding => goOn lock self .closeWindow .closing []
  | .running =>
    if build.isChecked then answer lock self .closeWindow (.panicked .windowNotOpen) []
    else check me lock self .closeWindow []

/-- The first step of the session's own request for shutdown. -/
def beginEnd (lock : Lock σ) (self : ThreadState σ) (session : Session) : Effect σ :=
  match session.phase with
  | .terminated => answer lock self .endSession (.flow .exit) []
  | _ =>
    let (isFirst, keepAlive) := lock.keepAlive.take
    goOn { lock with keepAlive } self .endSession .lowering
      (if isFirst then [.logged .workerInitiates] else [])

/-- The first step of a call that the thread is free to make. Spawning is not among
them, because it concerns another thread too. -/
def invoke? (build : Build) (now : Nat) (me : Thread) (lock : Lock σ)
    (self : ThreadState σ) (call : Call σ) : Option (Effect σ) :=
  if !self.permits call then none
  else match call with
  | .acquire =>
    if lock.isWorker me then
      goOn lock self call .reentering
        (if lock.config.warnOnWorkerAcquire then [.logged .workerReenters] else [])
    else goOn { lock with waiters := lock.waiters.enter } self call (.waiting ⟨now⟩) []
  | .tryAcquire =>
    if lock.mutex.canTake me then
      answer { lock with mutex := lock.mutex.take me } { self with guards := self.guards + 1 }
        call .acquired []
    else answer lock self call .refused []
  | .release =>
    answer { lock with mutex := lock.mutex.giveBack me } { self with guards := self.guards - 1 }
      call .released []
  | .read access => reach lock self call access lock
  | .write access value => reach lock self call access { lock with value }
  | .requestShutdown =>
    let (request, messages, lowered) := lock.requestShutdown me
    answer lowered self call (.requested request) (messages.map .logged)
  | .adopt =>
    if lock.worker.isSome then answer lock self call (.panicked .alreadyAdopted) []
    else goOn lock self call .adopting []
  | .yieldNow => self.session.map (beginYield build me lock self)
  | .openWindow => self.session.map (openWindow build me lock self)
  | .closeWindow => self.session.map (beginClose build me lock self)
  | .endSession => self.session.map (beginEnd lock self)
  | .dropSession | .unwindSession _ => leave lock self call
  | .join child =>
    goOn lock { self with handles := self.handles.erase child } call (.joining child) []
  | .finish _ =>
    leave { lock with mutex := lock.mutex.giveBackMany me self.guards }
      { self with guards := 0 } call
  | .spawn _ | .start => none

/-- A thread that finds the lock held by another joins the queue, once. -/
def park? (me : Thread) (lock : Lock σ) (self : ThreadState σ) : Option (Effect σ) :=
  if lock.mutex.isWaiting me then none
  else some { lock := { lock with mutex := lock.mutex.wait me }, self, events := [] }

/-- Takes the lock and goes on, or waits for it. -/
def withLock? (me : Thread) (lock : Lock σ) (self : ThreadState σ)
    (next : Lock σ → Effect σ) : Option (Effect σ) :=
  if lock.mutex.canTake me then some (next { lock with mutex := lock.mutex.take me })
  else park? me lock self

/-- A waiter has the lock: it is no longer counted, and its wait is recorded. -/
def obtain (build : Build) (now : Nat) (watch : Stopwatch) (me : Thread) (self : ThreadState σ)
    (call : Call σ) (taken : Lock σ) : Effect σ :=
  let left := { taken with waiters := taken.waiters.leave }
  if build.isChecked && !taken.waiters.isMatched then
    fail { left with mutex := left.mutex.giveBack me } self call .unmatchedLeave []
  else
    answer { left with stats := left.stats.countAcquisition (watch.elapsedMicros now) }
      { self with guards := self.guards + 1 } call .acquired []

/-- The answer to a call that has made its thread the worker. -/
def adoptedAnswer : Call σ → Answer σ
  | .start => .started
  | _ => .adopted

/-- Of the threads that get the lock to become the worker, the first does. -/
def claim (me : Thread) (self : ThreadState σ) (call : Call σ) (taken : Lock σ) : Effect σ :=
  if taken.worker.isSome then
    fail { taken with mutex := taken.mutex.giveBack me } self call .alreadyAdopted []
  else
    answer { taken with worker := some me } { self with session := some {} } call
      (adoptedAnswer call) [.logged (.adopted self.title)]

/-- A worker that someone waits for gives up its level and sleeps. -/
def poll (build : Build) (me : Thread) (lock : Lock σ) (self : ThreadState σ)
    (call : Call σ) : Effect σ :=
  if !lock.waiters.isSet then answer lock self call (.flow .proceed) []
  else
    let counted := { lock with stats := lock.stats.countHandoff }
    match self.session with
    | some { holds := true, .. } =>
      let mutex := lock.mutex.giveBack me
      if build.isChecked && mutex.isHeldBy me then
        -- The level is taken back before the panic goes on.
        answer { counted with mutex := mutex.take me } self call (.panicked .nestedYield) []
      else goOn { counted with mutex } self call .sleeping [.slept lock.config.yieldSleep]
    | _ => goOn counted self call .rechecking [.logged .handedOver]

/-- A window is closed once its thread has the lock. -/
def close (me : Thread) (self : ThreadState σ) (call : Call σ) (taken : Lock σ) : Effect σ :=
  check me { taken with stats := taken.stats.countWindow }
    { self with session := some { phase := .running, holds := true } } call []

/-- The session gives up the lock for good, unless guards on its thread still hold it. -/
def giveUp (build : Build) (me : Thread) (lock : Lock σ) (self : ThreadState σ)
    (call : Call σ) (session : Session) : Effect σ :=
  let mutex := lock.mutex.giveBackIf me session.holds
  let lowered := { lock with keepAlive := lock.keepAlive.clear, mutex }
  if build.isChecked && !call.isUnwinding && mutex.isHeldBy me then
    fail lowered { self with session := some { session with holds := false } } call .nestedExit []
  else
    goOn lowered { self with session := some { phase := .terminated, holds := false } } call
      .disposing [.logged .exiting]

/-- The teardown is taken out, so that no second end of the session finds it. -/
def dispose (lock : Lock σ) (self : ThreadState σ) (call : Call σ) : Effect σ :=
  let emptied := { lock with teardown := none }
  match lock.teardown with
  | some teardown => goOn emptied self call (.tearingDown teardown) []
  | none => goOn emptied self call .marking []

/-- A teardown that panics while its thread unwinds already never comes to an end. -/
def tearDown? (me : Thread) (lock : Lock σ) (self : ThreadState σ) (call : Call σ)
    (teardown : Teardown) : Option (Effect σ) :=
  let (entries, panic?, keepAlive) := teardown.run me lock
  let after := { lock with keepAlive }
  match panic? with
  | none =>
    let effect := goOn after self call .marking entries
    some { effect with events := .tornDown teardown :: effect.events }
  | some panic =>
    if call.isUnwinding then none
    else
      let effect := fail after self call panic entries
      some { effect with events := .tornDown teardown :: effect.events }

/-- The next step of a thread inside a call. Joining is not among them, as it concerns two
threads. -/
def step? (build : Build) (now : Nat) (me : Thread) (lock : Lock σ)
    (self : ThreadState σ) : Option (Effect σ) :=
  match self.activity with
  | .idle | .finished _ => none
  | .busy call point =>
    match point with
    | .waiting watch => withLock? me lock self (obtain build now watch me self call)
    | .reentering =>
      withLock? me lock self fun taken ↦
        answer taken { self with guards := self.guards + 1 } call .acquired []
    | .starting =>
      if lock.worker.isSome then fail lock self call .alreadyAdopted []
      else goOn lock self call .adopting []
    | .adopting => withLock? me lock self (claim me self call)
    | .polling => poll build me lock self call
    | .sleeping => goOn lock self call .retaking []
    | .retaking =>
      withLock? me lock self fun taken ↦ check me taken self call [.logged .handedOver]
    | .rechecking => check me lock self call []
    | .closing => withLock? me lock self (close me self call)
    | .lowering => self.session.map (giveUp build me lock self call)
    | .disposing => dispose lock self call
    | .tearingDown teardown => tearDown? me lock self call teardown
    | .marking => conclude { lock with terminated := lock.terminated.set } self call
    | .joining _ => none

section

variable (lock : Lock σ) (self : ThreadState σ) (call : Call σ) (entries : List Entry)

@[simp] theorem lock_answer (reply : Answer σ) :
    (answer lock self call reply entries).lock = lock := rfl

@[simp] theorem lock_goOn (point : Point) :
    (goOn lock self call point entries).lock = lock := rfl

@[simp] theorem lock_finish (outcome : Option Panic) :
    (finish lock self call outcome entries).lock = lock := rfl

@[simp] theorem lock_conclude : (conclude lock self call).lock = lock := by
  unfold conclude
  split <;> rfl

@[simp] theorem lock_fail (panic : Panic) : (fail lock self call panic entries).lock = lock := by
  unfold fail
  split <;> rfl

@[simp] theorem lock_check (me : Thread) : (check me lock self call entries).lock = lock := by
  unfold check
  split <;> rfl

@[simp] theorem self_answer (reply : Answer σ) :
    (answer lock self call reply entries).self = { self with activity := .idle } := rfl

@[simp] theorem self_goOn (point : Point) :
    (goOn lock self call point entries).self = { self with activity := .busy call point } := rfl

@[simp] theorem guards_conclude : (conclude lock self call).self.guards = self.guards := by
  unfold conclude
  split <;> rfl

@[simp] theorem guards_fail (panic : Panic) :
    (fail lock self call panic entries).self.guards = self.guards := by
  unfold fail
  split <;> rfl

@[simp] theorem guards_check (me : Thread) :
    (check me lock self call entries).self.guards = self.guards := by
  unfold check
  split <;> rfl

@[simp] theorem session_check (me : Thread) :
    (check me lock self call entries).self.session = self.session := by
  unfold check
  split <;> rfl

/-- The session is as it was or gone with the call that dropped it. -/
theorem session_conclude :
    (conclude lock self call).self.session = self.session ∨
      (conclude lock self call).self.session = none := by
  unfold conclude
  split <;> simp [answer, finish]

theorem session_fail (panic : Panic) :
    (fail lock self call panic entries).self.session = self.session ∨
      (fail lock self call panic entries).self.session = none := by
  unfold fail
  split <;> simp [answer, finish]

@[simp] theorem answers_answer (reply : Answer σ) :
    (answer lock self call reply entries).answers = [reply] := by
  simp [answer, Effect.answers, Event.answer?]

@[simp] theorem answers_goOn (point : Point) :
    (goOn lock self call point entries).answers = [] :=
  Effect.answers_entries lock _ entries

@[simp] theorem answers_finish (outcome : Option Panic) :
    (finish lock self call outcome entries).answers = [.finished] := by
  simp [finish, Effect.answers, Event.answer?]

@[simp] theorem answers_conclude : (conclude lock self call).answers = [call.ending] := by
  unfold conclude
  cases call <;> simp [Call.ending]

@[simp] theorem answers_fail (panic : Panic) :
    (fail lock self call panic entries).answers = [call.failure panic] := by
  unfold fail
  cases call <;> simp [Call.failure]

theorem answers_check (me : Thread) :
    (check me lock self call entries).answers =
      if lock.shouldExit me then [] else [.flow .proceed] := by
  unfold check
  split <;> simp

theorem isReleased_check (me : Thread) :
    (check me lock self call entries).self.activity.isReleased = false := by
  unfold check
  split <;> rfl

end

end ThreadState

end YieldLock
