import YieldLock.Call
import YieldLock.Stopwatch

/-!
# Where a thread is

A thread is idle, inside a call, or finished. Inside a call it stands at a point
between two steps. A thread owns its guards, which are all alike, and perhaps the
worker session; it also owns the handles of the workers that it spawned.
-/

namespace YieldLock

/-- The places in a call between two steps. -/
inductive Point where
  /-- Counted as a waiter since the watch was started, and waiting for the lock. -/
  | waiting (watch : Stopwatch)
  /-- The worker takes the lock once more. -/
  | reentering
  /-- A newborn worker thread looks whether there is a worker. -/
  | starting
  /-- Waiting for the lock to become the worker. -/
  | adopting
  /-- The worker looks whether anyone waits. -/
  | polling
  /-- The worker has given up its level and sleeps. -/
  | sleeping
  /-- The worker takes its level back after a sleep. -/
  | retaking
  /-- The worker looks for shutdown at the end of a yield. -/
  | rechecking
  /-- Waiting for the lock to close a window. -/
  | closing
  /-- The session is about to end: the first step lowers the signal and gives up its level. -/
  | lowering
  /-- The lock is given up and the teardown is to be taken out. -/
  | disposing
  | tearingDown (teardown : Teardown)
  /-- The end is to be announced. -/
  | marking
  | joining (child : Thread)
  deriving DecidableEq, Repr

inductive Activity (σ : Type) where
  | idle
  | busy (call : Call σ) (point : Point)
  | finished (outcome : Option Panic)
  deriving DecidableEq, Repr

structure ThreadState (σ : Type) where
  /-- The name that the thread was given, if any. -/
  title : Option String := none
  /-- Whether the thread was started as a worker. -/
  isSpawned : Bool := false
  guards : Nat := 0
  session : Option Session := none
  handles : List Thread := []
  activity : Activity σ := .idle
  deriving DecidableEq, Repr

namespace Activity

variable {σ : Type}

def isIdle : Activity σ → Bool
  | idle => true
  | _ => false

def isSleeping : Activity σ → Bool
  | busy _ .sleeping => true
  | _ => false

def isFinished : Activity σ → Bool
  | finished _ => true
  | _ => false

/-- The worker has given up its level inside a contended yield and not yet taken it back. -/
def isReleased : Activity σ → Bool
  | busy _ .sleeping | busy _ .retaking => true
  | _ => false

/-- The thread is counted as a waiter. -/
def isCounted : Activity σ → Bool
  | busy _ (.waiting _) => true
  | _ => false

end Activity

namespace ThreadState

variable {σ : Type}

instance : Inhabited (ThreadState σ) := ⟨{}⟩

/-- The level of the lock that a session stands for, unless its thread has given it up for the
length of a yield. -/
def sessionLevel (self : ThreadState σ) : Nat :=
  match self.session with
  | some session => if session.holds && !self.activity.isReleased then 1 else 0
  | none => 0

/-- The levels of the lock that a thread's guards and session stand for. -/
def levels (self : ThreadState σ) : Nat := self.guards + self.sessionLevel

/-- A session of the thread, if there is one, holds no level. -/
def HoldsNoLevel (self : ThreadState σ) : Prop :=
  ∀ session, self.session = some session → session.holds = false

theorem holdsNoLevel_of_none {self : ThreadState σ} (h : self.session = none) :
    self.HoldsNoLevel := by
  intro session hsession
  rw [h] at hsession
  cases hsession

theorem holdsNoLevel_of_some {self : ThreadState σ} {session : Session}
    (h : self.session = some session) (hholds : session.holds = false) : self.HoldsNoLevel := by
  intro other hother
  rw [h, Option.some_inj] at hother
  rw [← hother, hholds]

theorem levels_of_holdsNoLevel {self : ThreadState σ} (h : self.HoldsNoLevel) :
    self.levels = self.guards := by
  unfold levels sessionLevel
  split
  · rename_i session hsession
    simp [h session hsession]
  · rfl

theorem levels_of_released {self : ThreadState σ}
    (hreleased : self.activity.isReleased = true) : self.levels = self.guards := by
  unfold levels sessionLevel
  split <;> simp [hreleased]

theorem levels_of_holds {self : ThreadState σ} {session : Session}
    (hsession : self.session = some session) (hholds : session.holds = true)
    (hreleased : self.activity.isReleased = false) : self.levels = self.guards + 1 := by
  simp [levels, sessionLevel, hsession, hholds, hreleased]

/-- Only the guards, the session and being released matter to the levels. -/
theorem levels_add {self after : ThreadState σ} (count : Nat)
    (hguards : after.guards = self.guards + count) (hsession : after.session = self.session)
    (hreleased : after.activity.isReleased = self.activity.isReleased) :
    after.levels = self.levels + count := by
  have hlevel : after.sessionLevel = self.sessionLevel := by
    simp [sessionLevel, hsession, hreleased]
  rw [levels, levels, hlevel, hguards]
  omega

/-- A thread can only ask for what its guards, its session and its handles give it. -/
def permits (self : ThreadState σ) (call : Call σ) : Bool :=
  self.activity.isIdle &&
    match call with
    | .release | .read .guard | .write .guard _ => 0 < self.guards
    | .read .session | .write .session _ => self.session.isSome
    | .yieldNow | .openWindow | .closeWindow | .endSession => self.session.isSome
    | .dropSession | .unwindSession _ => self.session.isSome && !self.isSpawned
    | .join child => self.handles.contains child
    | .finish _ => self.isSpawned
    | .start => false
    | .acquire | .tryAcquire | .requestShutdown | .adopt | .spawn _ => true

end ThreadState

end YieldLock
