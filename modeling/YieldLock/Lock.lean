import YieldLock.Config
import YieldLock.Message
import YieldLock.Mutex
import YieldLock.Signal
import YieldLock.Stats
import YieldLock.Waiters

/-!
# The lock and what its threads share

A lock guards one value with a reentrant mutex. Beside the mutex its threads
share the number of waiters, the signal that shutdown lowers, the signal that the
worker raises when it has ended, the worker's identity, the teardown that is
still to run, and the counters.
-/

namespace YieldLock

/-- What the worker's thread does after it has given up the lock for good. A teardown leaves a note,
or looks at the lock and asks for shutdown, or panics. It is run in a single step: a teardown that
waits for another thread, takes the lock or changes the value is not among them. -/
inductive Teardown where
  | note (text : String)
  | probe
  | fail (text : String)
  deriving DecidableEq, Repr

/-- The outcome of a request for shutdown. -/
inductive ShutdownRequest where
  | signalled
  | workerMustExit
  | alreadyRequested
  deriving DecidableEq, Repr

namespace ShutdownRequest

def describe : ShutdownRequest → String
  | signalled => "Signalled"
  | workerMustExit => "WorkerMustExit"
  | alreadyRequested => "AlreadyRequested"

end ShutdownRequest

structure Lock (σ : Type) where
  value : σ
  config : Config
  mutex : Mutex := {}
  waiters : Waiters := {}
  keepAlive : Signal := ⟨true⟩
  terminated : Signal := ⟨false⟩
  worker : Option Thread := none
  teardown : Option Teardown := none
  stats : Stats := {}
  deriving DecidableEq, Repr

namespace Lock

variable {σ : Type}

/-- A lock around a value with the standard configuration. -/
def standard (build : Build) (value : σ) : Lock σ where
  value
  config := .standard build

/-- A lock around a value, if the protocol can work with the configuration. -/
def withConfig (value : σ) (config : Config) : Except LockError (Lock σ) := do
  config.validate
  return { value, config }

/-- Installs a teardown in place of any earlier one. -/
def withTeardown (lock : Lock σ) (teardown : Teardown) : Lock σ :=
  { lock with teardown := some teardown }

/-- The value that is left of a lock once it is given up altogether. -/
def intoInner (lock : Lock σ) : σ := lock.value

def isWorker (lock : Lock σ) (thread : Thread) : Bool := lock.worker == some thread

/-- Shutdown was requested and the thread is the one that has to obey. -/
def shouldExit (lock : Lock σ) (thread : Thread) : Bool :=
  !lock.keepAlive.isSet && lock.isWorker thread

/-- Whether the worker ought to give up the lock at its next yield. -/
def isControllerWaiting (lock : Lock σ) : Bool :=
  lock.waiters.isSet || !lock.keepAlive.isSet

/-- The first request lowers the signal and tells who has to act on it. -/
def requestShutdown (lock : Lock σ) (thread : Thread) :
    ShutdownRequest × List Message × Lock σ :=
  let (isFirst, keepAlive) := lock.keepAlive.take
  let lowered := { lock with keepAlive }
  if !isFirst then (.alreadyRequested, [], lowered)
  else if lock.isWorker thread then (.workerMustExit, [.workerInitiates], lowered)
  else (.signalled, [.shutdownRequested], lowered)

def record (lock : Lock σ) : Text.Record where
  name := "Mainlock"
  fields :=
    [("worker", lock.worker.elim "None" fun worker ↦ "Some(<" ++ worker ++ ">)"),
      ("waiting_controllers", toString lock.waiters.count),
      ("keep_alive", toString lock.keepAlive.isSet),
      ("terminated", toString lock.terminated.isSet),
      ("locked", toString lock.mutex.isLocked),
      ("config", lock.config.describe)]
  hasMore := true

def describe (lock : Lock σ) : String := lock.record.inline

theorem requestShutdown_of_lowered {lock : Lock σ} (h : lock.keepAlive.isSet = false)
    (thread : Thread) : lock.requestShutdown thread = (.alreadyRequested, [], lock) := by
  obtain ⟨value, config, mutex, waiters, ⟨isSet⟩, terminated, worker, teardown, stats⟩ := lock
  simp only at h
  subst h
  rfl

@[simp] theorem lock_requestShutdown (lock : Lock σ) (thread : Thread) :
    (lock.requestShutdown thread).2.2 = { lock with keepAlive := lock.keepAlive.clear } := by
  unfold requestShutdown
  simp only
  split
  · rfl
  · split <;> rfl

end Lock

namespace Teardown

variable {σ : Type}

/-- The text that a probing teardown leaves about the lock as its thread sees it. -/
def probeText (thread : Thread) (lock : Lock σ) (request : ShutdownRequest) : String :=
  String.intercalate " "
    ["teardown held=" ++ toString (lock.mutex.isHeldBy thread),
      "alive=" ++ toString lock.keepAlive.isSet,
      "terminated=" ++ toString lock.terminated.isSet,
      "waiting=" ++ toString lock.isControllerWaiting,
      "worker=" ++ toString (lock.isWorker thread),
      "shutdown=" ++ request.describe]

/-- Runs a teardown on a thread: what it logs, the panic it raises if any, and the signal for
shutdown after it, which is all of the lock that a teardown has a hand in. -/
def run (thread : Thread) (lock : Lock σ) : Teardown → List Entry × Option Panic × Signal
  | note text => ([.noted text], none, lock.keepAlive)
  | probe =>
    let (request, messages, lowered) := lock.requestShutdown thread
    (messages.map .logged ++ [.noted (probeText thread lock request)], none, lowered.keepAlive)
  | fail text => ([], some (.raised (.text text)), lock.keepAlive)

/-- No teardown raises the signal again. -/
theorem run_lowered {thread : Thread} {lock : Lock σ} (teardown : Teardown)
    (h : lock.keepAlive.isSet = false) : (teardown.run thread lock).2.2.isSet = false := by
  cases teardown with
  | note | fail => exact h
  | probe =>
    unfold run
    simp only [Lock.requestShutdown_of_lowered h, h]

/-- The teardowns that panic are those that are made to. -/
theorem exists_fail_of_panic {thread : Thread} {lock : Lock σ} {teardown : Teardown}
    {panic : Panic} (h : (teardown.run thread lock).2.1 = some panic) :
    ∃ text, teardown = .fail text := by
  cases teardown with
  | fail text => exact ⟨text, rfl⟩
  | note | probe => cases h

end Teardown

end YieldLock
