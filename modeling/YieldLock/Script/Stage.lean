import YieldLock.Script.Op

/-!
# The stage of a script

A stage is a world together with what a script remembers of its actors: whether
an actor is inside a closure, what its operation makes of the answers of its
calls, and the lines logged since its last reply.
-/

namespace YieldLock.Script

/-- What an operation makes of the answers of its calls. -/
inductive Task where
  | single
  /-- Yields up to `left` more times after `done` yields that were told to go on. -/
  | yields (left done : Nat)
  | opening
  | closing (result : Int64)
  deriving DecidableEq, Repr

structure Actor where
  isInClosure : Bool := false
  task : Task := .single
  /-- The call that the operation makes next. -/
  next : Option (Call Int64) := none
  log : List Entry := []
  deriving DecidableEq, Repr, Inhabited

structure Stage where
  world : World Int64
  actors : Roster Actor := {}
  /-- Replies that came in since the step began. -/
  replies : List Woken := []
  /-- How often a teardown was entered. -/
  teardowns : Nat := 0
  /-- Whether sleeps end by themselves. -/
  wakesSleepers : Bool := false
  deriving DecidableEq, Repr

namespace Stage

def thread (stage : Stage) (actor : Thread) : ThreadState Int64 := stage.world.thread actor

/-- Hands in a reply with the lines logged up to it. -/
def reply (stage : Stage) (actor : Thread) (reply : Reply) : Stage :=
  let { log, isInClosure, .. } := stage.actors.get actor
  { stage with
    actors := stage.actors.set actor { isInClosure }
    replies := stage.replies ++ [{ actor, reply, log }] }

/-- The actor is to make a call, and to treat its answer as the task says. -/
def plan (stage : Stage) (actor : Thread) (task : Task) (call : Call Int64) : Stage :=
  let state := { stage.actors.get actor with task, next := some call }
  { stage with actors := stage.actors.set actor state }

def setClosure (stage : Stage) (actor : Thread) (isInClosure : Bool) : Stage :=
  { stage with actors := stage.actors.set actor { stage.actors.get actor with isInClosure } }

/-- The reply that an answer makes for an operation of a single call. -/
def replyOf (stage : Stage) (actor : Thread) : Answer Int64 → Reply
  | .acquired => .held stage.world.lock.value
  | .refused => .nothing
  | .released => .guards (stage.thread actor).guards
  | .value value => .value value
  | .requested request => .requested request
  | .adopted => .adopted
  | .opened => .nothing
  | .flow flow => .flow flow
  | .dropped => .dropped
  | .spawned => .spawned
  | .joined error => .joined error
  | .started => .started (stage.thread actor).title
  | .finished => .finished
  | .panicked panic => .panicked panic

/-- Takes in what a step of a thread showed, apart from the answer. -/
def observe (stage : Stage) (actor : Thread) : Event Int64 → Stage
  | .entry line =>
    let state := stage.actors.get actor
    { stage with actors := stage.actors.set actor { state with log := state.log ++ [line] } }
  | .tornDown _ => { stage with teardowns := stage.teardowns + 1 }
  | .answered _ _ => stage

/-- An answer makes a reply, or the operation goes on with another call. -/
def respond (stage : Stage) (actor : Thread) (answer : Answer Int64) : Stage :=
  match (stage.actors.get actor).task, answer with
  | .yields left done, .flow .proceed =>
    match left with
    | 0 => stage.reply actor (.passes (done + 1))
    | left + 1 => stage.plan actor (.yields left (done + 1)) .yieldNow
  | .yields _ done, .flow .exit => stage.reply actor (.passes done)
  | .opening, .opened => (stage.setClosure actor true).reply actor .opened
  | .closing result, .flow flow => stage.reply actor (.closed result flow)
  | _, answer => stage.reply actor (stage.replyOf actor answer)

/-- Takes in the world after a move of a thread and the events of that move. -/
def absorb (stage : Stage) (actor : Thread) (world : World Int64) (events : List (Event Int64)) :
    Stage :=
  let seen := events.foldl (fun stage event ↦ stage.observe actor event) { stage with world }
  match events.findSome? Event.answer? with
  | some answer => seen.respond actor answer
  | none => seen

/-- An actor makes the next call of its operation, or its thread moves on inside a call. -/
def advance? (build : Build) (stage : Stage) (actor : Thread) : Option Stage :=
  let state := stage.actors.get actor
  match state.next with
  | some call =>
    let planned := { stage with actors := stage.actors.set actor { state with next := none } }
    (stage.world.call? build actor call).map fun (world, events) ↦
      planned.absorb actor world events
  | none =>
    (stage.world.step? build actor).map fun (world, events) ↦ stage.absorb actor world events

def isSleeping (stage : Stage) (actor : Thread) : Bool :=
  (stage.thread actor).activity.isSleeping

/-- The threads in the order in which they get to move, the one whose turn at the lock it is
ahead of all. -/
def order (stage : Stage) (first : Thread) : List Thread :=
  stage.world.lock.mutex.next?.toList ++ first :: stage.world.threads.threads

/-- Moves one thread that does not sleep; a sleep ends only when nothing else can move. -/
def stir? (build : Build) (stage : Stage) (first : Thread) : Option Stage :=
  let order := stage.order first
  match order.findSome? fun actor ↦
      if stage.isSleeping actor then none else stage.advance? build actor with
  | some next => next
  | none =>
    if stage.wakesSleepers then
      order.findSome? fun actor ↦
        if stage.isSleeping actor then stage.advance? build actor else none
    else none

/-- Lets the threads move for as long as one can, up to a number of moves. -/
def settleWithin (build : Build) (first : Thread) : Nat → Stage → Stage
  | 0, stage => stage
  | fuel + 1, stage =>
    match stage.stir? build first with
    | some next => settleWithin build first fuel next
    | none => stage

/-- More moves than the calls under way can take: sixteen a thread and a yield to come. -/
def workLeft (stage : Stage) : Nat :=
  stage.actors.entries.foldl
    (fun moves (_, actor) ↦
      match actor.task with
      | .yields left _ => moves + 16 * left
      | _ => moves)
    (16 * (stage.world.threads.entries.length + 1))

def settle (build : Build) (stage : Stage) (first : Thread) : Stage :=
  settleWithin build first stage.workLeft stage

end Stage

end YieldLock.Script
