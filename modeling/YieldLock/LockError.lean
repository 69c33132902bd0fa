import YieldLock.Panic
import YieldLock.SystemError

/-!
# Errors around a lock

The protocol itself cannot fail. What can is a configuration that it cannot work
with, a worker thread that the system does not start, and a worker thread that
unwound instead of returning.
-/

namespace YieldLock

inductive LockError where
  | zeroYieldSleep
  | spawn (cause : SystemError)
  | workerPanicked (text : String)
  deriving DecidableEq, Repr

namespace LockError

/-- The error for a worker that ended in a panic. -/
def ofPanic (panic : Panic) : LockError := workerPanicked panic.message

def message : LockError → String
  | zeroYieldSleep => "yield sleep must be nonzero"
  | spawn cause => "failed to spawn worker thread: " ++ cause.message
  | workerPanicked text => "worker thread panicked: " ++ text

def describe : LockError → String
  | zeroYieldSleep => "ZeroYieldSleep"
  | spawn cause => "Spawn(" ++ cause.describe ++ ")"
  | workerPanicked text => "WorkerPanicked(" ++ Text.quoted text ++ ")"

/-- The error behind this one, if there is one. -/
def source? : LockError → Option SystemError
  | spawn cause => some cause
  | _ => none

end LockError

end YieldLock
