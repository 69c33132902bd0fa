import YieldLock.Duration
import YieldLock.LockError

/-!
# Configuration of a lock

How long the worker sleeps in a contended yield, what its thread is called, and
whether it is warned when it acquires the lock that it owns. The protocol needs
a sleep that is not zero and nothing else.
-/

namespace YieldLock

structure Config where
  yieldSleep : Duration
  workerName : String
  warnOnWorkerAcquire : Bool
  deriving DecidableEq, Repr

namespace Config

/-- The configuration of a lock that is given none. Only a checked build warns. -/
def standard (build : Build) : Config where
  yieldSleep := .hundredMicros
  workerName := "mainlock-worker"
  warnOnWorkerAcquire := build.isChecked

def validate (config : Config) : Except LockError Unit :=
  if config.yieldSleep.isZero then .error .zeroYieldSleep else .ok ()

def record (config : Config) : Text.Record where
  name := "MainlockConfig"
  fields :=
    [("yield_sleep", config.yieldSleep.describe),
      ("worker_thread_name", Text.quoted config.workerName),
      ("warn_on_worker_acquire", toString config.warnOnWorkerAcquire)]

def describe (config : Config) : String := config.record.inline

theorem validate_eq_ok_iff (config : Config) :
    config.validate = .ok () ↔ config.yieldSleep.toNanos ≠ 0 := by
  rw [validate, Ne, ← Duration.isZero_iff_toNanos]
  split <;> simp_all

theorem validate_standard (build : Build) : (standard build).validate = .ok () := by
  cases build <;> rfl

end Config

end YieldLock
