import YieldLock.Lock

/-!
# Calls

What a thread can ask of a lock, what it is answered, and what can be seen while
a call is under way. A window of the worker is opened and closed by two calls, so
that whatever the thread does in between is a call of its own.
-/

namespace YieldLock

/-- The hold through which a thread reaches the guarded value. -/
inductive Access where
  | guard
  | session
  deriving DecidableEq, Repr

inductive Call (σ : Type) where
  | acquire
  | tryAcquire
  | release
  | read (access : Access)
  | write (access : Access) (value : σ)
  | requestShutdown
  | adopt
  | yieldNow
  | openWindow
  | closeWindow
  | endSession
  | dropSession
  | unwindSession (panic : Panic)
  | spawn (child : Thread)
  | join (child : Thread)
  | start
  | finish (outcome : Option Panic)
  deriving DecidableEq, Repr

inductive Answer (σ : Type) where
  | acquired
  | refused
  | released
  | value (value : σ)
  | requested (request : ShutdownRequest)
  | adopted
  | opened
  | flow (flow : Flow)
  | dropped
  | spawned
  | joined (error : Option LockError)
  | started
  | finished
  | panicked (panic : Panic)
  deriving DecidableEq, Repr

/-- What a step of a thread shows: a line in its log, a teardown that is entered, an answer. -/
inductive Event (σ : Type) where
  | entry (line : Entry)
  | tornDown (teardown : Teardown)
  | answered (call : Call σ) (answer : Answer σ)
  deriving DecidableEq, Repr

namespace Call

variable {σ : Type}

/-- Calls that run while their thread unwinds from a panic. -/
def isUnwinding : Call σ → Bool
  | unwindSession _ | finish (some _) => true
  | _ => false

/-- The answer to a call that has ended the session. -/
def ending : Call σ → Answer σ
  | dropSession => .dropped
  | unwindSession panic => .panicked panic
  | finish _ => .finished
  | _ => .flow .exit

/-- The answer to a call that has panicked; that a thread has ended tells nothing of its panic. -/
def failure (call : Call σ) (panic : Panic) : Answer σ :=
  match call with
  | start | finish _ => .finished
  | _ => .panicked panic

theorem ending_ne_requested (call : Call σ) (request : ShutdownRequest) :
    call.ending ≠ .requested request := by
  cases call <;> nofun

theorem failure_ne_requested (call : Call σ) (panic : Panic) (request : ShutdownRequest) :
    call.failure panic ≠ .requested request := by
  cases call <;> nofun

end Call

namespace Event

variable {σ : Type}

def entry? : Event σ → Option Entry
  | .entry line => some line
  | _ => none

def answer? : Event σ → Option (Answer σ)
  | .answered _ reply => some reply
  | _ => none

@[simp] theorem filterMap_answer?_entries (entries : List Entry) :
    (entries.map entry : List (Event σ)).filterMap answer? = [] := by
  simp [answer?]

theorem mem_answers {call : Call σ} {reply : Answer σ} {events : List (Event σ)}
    (h : .answered call reply ∈ events) : reply ∈ events.filterMap answer? :=
  List.mem_filterMap.mpr ⟨_, h, rfl⟩

end Event

end YieldLock
