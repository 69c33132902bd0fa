/-!
# Stopwatches

A stopwatch keeps the time at which it was started, in nanoseconds. Its reading
in microseconds is a word, which stays at its largest value once it is reached.
-/

namespace YieldLock

structure Stopwatch where
  started : Nat
  deriving DecidableEq, Repr

namespace Stopwatch

/-- The nanoseconds since the start. -/
def elapsed (watch : Stopwatch) (now : Nat) : Nat := now - watch.started

/-- The whole microseconds since the start, as far as a word reaches. -/
def elapsedMicros (watch : Stopwatch) (now : Nat) : UInt64 :=
  UInt64.ofNat (min (watch.elapsed now / 1000) (UInt64.size - 1))

/-- What a wait of some milliseconds shows of a stopwatch started before it. -/
structure Reading where
  isElapsed : Bool
  isElapsedInMicros : Bool
  isMonotonic : Bool
  deriving DecidableEq, Repr

/-- Starts a stopwatch, waits, and reads it twice. -/
def afterWaiting (start millis : Nat) : Reading :=
  let watch : Stopwatch := ⟨start⟩
  let now := start + millis * 1000000
  { isElapsed := millis * 1000000 ≤ watch.elapsed now
    isElapsedInMicros := millis * 1000 ≤ (watch.elapsedMicros now).toNat
    isMonotonic := watch.elapsed now ≤ watch.elapsed (now + 1) }

end Stopwatch

end YieldLock
