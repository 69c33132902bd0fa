import YieldLock.World

/-!
# Scripts: what an actor does and what it is told

A script is a list of steps, each an operation for one named actor. Every actor
is one thread. Most operations are one call; a few read the lock without a call,
repeat a call, or bracket other steps as a closure that runs in a window.
-/

namespace YieldLock.Script

inductive Op where
  | acquire
  | tryAcquire
  /-- Gives up the guard with an index, the newest one if there is no index. -/
  | release (index : Option Int)
  | get
  | set (value : Int64)
  | describeGuard
  | requestShutdown
  | query
  | describeLock
  | stats
  | adopt
  | yieldNow
  | yieldMany (count : Nat)
  | openWindow
  | closeWindow
  | endSession
  | sharedGet
  | sharedSet (value : Int64)
  | describeSession
  | dropSession
  | panicWithSession (text : String)
  | openClosure
  | closeClosure (result : Int64)
  | panicInClosure
  | spawn (child : Thread)
  | returnFromBody
  | panicInBody (payload : Payload)
  | join (child : Thread)
  | handle (child : Thread)
  | wake
  | unknown
  deriving DecidableEq, Repr

/-- The name of the coordinator, which no actor can be given. -/
def coordinator : Thread := "-"

/-- What the coordinator of a script does between the steps of the actors. -/
inductive Coordination where
  | pause (millis : Nat)
  | longestAtLeast (micros : Nat)
  | config
  | unknown
  deriving DecidableEq, Repr

inductive Step where
  | act (actor : Thread) (op : Op)
  | coordinate (coordination : Coordination)
  deriving DecidableEq, Repr

/-- Why an operation is not carried out. -/
inductive Refusal where
  | busy
  | finished
  | notSleeping
  | actorExists
  | noSession
  | inClosure
  | noGuard
  | noHandle
  | badOp
  deriving DecidableEq, Repr

/-- The result of an operation that its actor has completed. -/
inductive Reply where
  | nothing
  | held (value : Int64)
  | guards (remaining : Nat)
  | value (value : Int64)
  | text (text : String)
  | requested (request : ShutdownRequest)
  | identity (isWorker isHolder : Bool) (worker : Option Thread)
  | stats (values : List UInt64)
  | adopted
  | flow (flow : Flow)
  | passes (count : Nat)
  | session (isRunning : Bool) (text : String)
  | dropped
  | opened
  | closed (result : Int64) (flow : Flow)
  | spawned
  | started (title : Option String)
  | finished
  | joined (error : Option LockError)
  | handle (isFinished : Bool) (child : Thread)
  | panicked (panic : Panic)
  | refused (refusal : Refusal)
  deriving DecidableEq, Repr

/-- How far an actor got with its operation. -/
inductive Progress where
  | replied (reply : Reply) (log : List Entry)
  | blocked
  | sleeping
  deriving DecidableEq, Repr

/-- What anyone can read off the lock. -/
structure Status where
  keepAlive : Bool
  isControllerWaiting : Bool
  waiting : UInt64
  isTerminated : Bool
  isLocked : Bool
  deriving DecidableEq, Repr

/-- An actor that completed an operation of an earlier step, or its own start. -/
structure Woken where
  actor : Thread
  reply : Reply
  log : List Entry
  deriving DecidableEq, Repr

/-- The outcome of a step once every thread has settled. -/
inductive Outcome where
  | report (progress : Progress) (woken : List Woken) (status : Status)
  | refused (refusal : Refusal)
  | paused
  | measured (isReached : Bool)
  | config (config : Config)
  deriving DecidableEq, Repr

namespace Refusal

def describe : Refusal → String
  | busy => "busy"
  | finished => "finished"
  | notSleeping => "not_sleeping"
  | actorExists => "actor_exists"
  | noSession => "no_session"
  | inClosure => "in_closure"
  | noGuard => "no_guard"
  | noHandle => "no_handle"
  | badOp => "bad_op"

end Refusal

namespace Status

def of {σ : Type} (lock : Lock σ) : Status where
  keepAlive := lock.keepAlive.isSet
  isControllerWaiting := lock.isControllerWaiting
  waiting := lock.waiters.count
  isTerminated := lock.terminated.isSet
  isLocked := lock.mutex.isLocked

end Status

end YieldLock.Script
