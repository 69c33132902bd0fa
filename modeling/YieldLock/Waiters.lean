/-!
# Counting waiters

The threads waiting for the lock are counted in a 64-bit word. It reads as set
while one waiter is registered. A leave without an enter wraps the word, and a
checked build notices it.
-/

namespace YieldLock

structure Waiters where
  count : UInt64 := 0
  deriving DecidableEq, Repr

namespace Waiters

def isSet (waiters : Waiters) : Bool := 0 < waiters.count

def enter (waiters : Waiters) : Waiters := ⟨waiters.count + 1⟩

def leave (waiters : Waiters) : Waiters := ⟨waiters.count - 1⟩

/-- A leave is matched when a waiter was registered before it. -/
def isMatched (waiters : Waiters) : Bool := 0 < waiters.count

def enterMany : Nat → Waiters → Waiters
  | 0, waiters => waiters
  | count + 1, waiters => enterMany count waiters.enter

def describe (waiters : Waiters) : String := s!"WaiterCount({waiters.count})"

@[simp] theorem leave_enter (waiters : Waiters) : waiters.enter.leave = waiters := by
  cases waiters
  simp [enter, leave]

@[simp] theorem enter_leave (waiters : Waiters) : waiters.leave.enter = waiters := by
  cases waiters
  simp [enter, leave]

end Waiters

end YieldLock
