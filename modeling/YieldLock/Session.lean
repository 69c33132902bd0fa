import YieldLock.Text.Record

/-!
# Worker sessions

The worker's part in the protocol. A running session reaches the guarded value,
a yielding one has opened a window for others, and a terminated one has given up
the lock for good. The session's own level of the lock is present or absent
apart from the phase.
-/

namespace YieldLock

inductive Phase where
  | running
  | yielding
  | terminated
  deriving DecidableEq, Repr

/-- What the worker's loop is told at a check point. -/
inductive Flow where
  | proceed
  | exit
  deriving DecidableEq, Repr

structure Session where
  phase : Phase := .running
  holds : Bool := true
  deriving DecidableEq, Repr

namespace Phase

def describe : Phase → String
  | running => "Running"
  | yielding => "Yielding"
  | terminated => "Terminated"

end Phase

namespace Flow

def describe : Flow → String
  | proceed => "Continue"
  | exit => "Exit"

end Flow

namespace Session

def isRunning (session : Session) : Bool := session.phase != .terminated

def describe (session : Session) : String :=
  Text.Record.inline
    { name := "WorkerSession"
      fields := [("phase", session.phase.describe), ("holds_lock", toString session.holds)] }

end Session

end YieldLock
