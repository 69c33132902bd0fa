import YieldLock.Panic
import YieldLock.Signal
import YieldLock.Waiters

/-!
# Scripts for a signal and for a count of waiters

Both are used here on their own, without a lock. The outcome of an operation is
its result and the reading after it.
-/

namespace YieldLock.Script

inductive SignalOp where
  | set
  | clear
  | take
  /-- Several threads take at once. -/
  | race (takers : Nat)
  | describe
  | unknown
  deriving DecidableEq, Repr

inductive WaitersOp where
  | enter
  | enterMany (count : Nat)
  | leave
  | describe
  | unknown
  deriving DecidableEq, Repr

inductive Result where
  | nothing
  | taken (won : Bool)
  | winners (count : Nat)
  | text (text : String)
  | panicked (panic : Panic)
  | refused
  deriving DecidableEq, Repr

def SignalOp.run (signal : Signal) : SignalOp → Result × Signal
  | set => (.nothing, signal.set)
  | clear => (.nothing, signal.clear)
  | take => (.taken signal.take.1, signal.take.2)
  | race takers =>
    let (answers, last) := Signal.takeMany takers signal
    (.winners (answers.count true), last)
  | describe => (.text signal.describe, signal)
  | unknown => (.refused, signal)

/-- The word has wrapped before an unmatched leave is noticed. -/
def WaitersOp.run (build : Build) (waiters : Waiters) : WaitersOp → Result × Waiters
  | enter => (.nothing, waiters.enter)
  | enterMany count => (.nothing, Waiters.enterMany count waiters)
  | leave =>
    if build.isChecked && !waiters.isMatched then (.panicked .unmatchedLeave, waiters.leave)
    else (.nothing, waiters.leave)
  | describe => (.text waiters.describe, waiters)
  | unknown => (.refused, waiters)

/-- The results of a list of operations, each with what the step left behind. -/
def runAll {σ ο : Type} (run : σ → ο → Result × σ) (state : σ) : List ο → List (Result × σ)
  | [] => []
  | op :: ops =>
    let outcome := run state op
    outcome :: runAll run outcome.2 ops

end YieldLock.Script
