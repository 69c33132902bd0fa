import YieldLock.Session
import YieldLock.Build

/-!
# Panics

The causes for which a call unwinds instead of returning. Assertions are checked
in one of the two builds only; the others are part of the protocol or come from
code that the lock runs for its user.
-/

namespace YieldLock

/-- What foreign code panics with. Only a text can be reported later. -/
inductive Payload where
  | text (message : String)
  | other
  deriving DecidableEq, Repr

inductive Panic where
  | alreadyAdopted
  | notHolding (phase : Phase)
  | nestedYield
  | nestedWindow
  | nestedExit
  | yieldInWindow
  | windowOpenTwice
  | windowNotOpen
  | unmatchedLeave
  | overflow
  | interiorNul (name : String)
  | raised (payload : Payload)
  deriving DecidableEq, Repr

namespace Panic

/-- Panics that only a checked build raises. -/
def isAssertion : Panic → Bool
  | nestedYield | nestedWindow | nestedExit => true
  | yieldInWindow | windowOpenTwice | windowNotOpen => true
  | unmatchedLeave | overflow => true
  | _ => false

/-- Assertions against a worker that gives up the lock while guards on its thread keep it. -/
def isNesting : Panic → Bool
  | nestedYield | nestedWindow | nestedExit => true
  | _ => false

/-- The bytes of a name and the place of the first zero among them. -/
def describeNul (name : String) : String :=
  let bytes := name.toUTF8.toList.map UInt8.toNat
  let place := bytes.findIdx (· == 0)
  let listed := String.intercalate ", " (bytes.map toString)
  "NulError(" ++ toString place ++ ", [" ++ listed ++ "])"

/-- The text of a panic, if its payload is one. -/
def message? : Panic → Option String
  | alreadyAdopted => some "Mainlock: a worker thread has already been adopted"
  | notHolding phase => some <|
      "Mainlock: worker touched shared state while not holding the lock (" ++ phase.describe ++ ")"
  | nestedYield => some "Mainlock: worker yielded while holding nested acquisitions"
  | nestedWindow =>
      some "Mainlock: worker opened a yield window while holding nested acquisitions"
  | nestedExit => some "Mainlock: worker exiting while holding nested acquisitions"
  | yieldInWindow => some "Mainlock: yield_now called inside a yield window"
  | windowOpenTwice => some "Mainlock: yield_begin called twice"
  | windowNotOpen => some "Mainlock: yield_end called without yield_begin"
  | unmatchedLeave => some "WaiterCount::leave without matching enter"
  | overflow => some "attempt to add with overflow"
  | interiorNul name => some <|
      "thread name may not contain interior null bytes: " ++ describeNul name
  | raised (.text message) => some message
  | raised .other => none

/-- The text of a panic as a thread's end reports it. -/
def message (panic : Panic) : String := panic.message?.getD "unknown panic payload"

end Panic

namespace Build

/-- The sum of two words: too large a sum is a panic in a checked build and wraps in the other. -/
def add (build : Build) (left right : UInt64) : Except Panic UInt64 :=
  if build.isChecked && UInt64.size ≤ left.toNat + right.toNat then .error .overflow
  else .ok (left + right)

end Build

end YieldLock
