/-!
# Signals

A signal is one bit that a thread raises and lowers and every other thread can
read. Taking it lowers it and tells whether it was raised, so that of several
takers exactly one sees the change.
-/

namespace YieldLock

structure Signal where
  isSet : Bool := false
  deriving DecidableEq, Repr

namespace Signal

def set (_ : Signal) : Signal := ⟨true⟩

def clear (_ : Signal) : Signal := ⟨false⟩

/-- Lowers the signal and tells whether this call is the one that lowered it. -/
def take (signal : Signal) : Bool × Signal := (signal.isSet, ⟨false⟩)

/-- The answers of a number of takers, one after the other. -/
def takeMany : Nat → Signal → List Bool × Signal
  | 0, signal => ([], signal)
  | count + 1, signal =>
    let (first, lowered) := signal.take
    let (others, last) := takeMany count lowered
    (first :: others, last)

def describe (signal : Signal) : String := s!"SignalFlag({signal.isSet})"

@[simp] theorem isSet_set (signal : Signal) : signal.set.isSet = true := rfl

@[simp] theorem isSet_clear (signal : Signal) : signal.clear.isSet = false := rfl

@[simp] theorem isSet_take (signal : Signal) : signal.take.2.isSet = false := rfl

@[simp] theorem take_fst (signal : Signal) : signal.take.1 = signal.isSet := rfl

end Signal

end YieldLock
