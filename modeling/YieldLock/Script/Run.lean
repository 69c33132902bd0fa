import YieldLock.Script.Stage

/-!
# Running a script

A step is refused for who is asked, or starts an operation of its actor. Then
every thread moves for as long as one can, with the oldest waiter first whenever
the lock is free. The outcome tells how far the actor got, who else completed an
operation, and what can be read off the lock.
-/

namespace YieldLock.Script

namespace Stage

/-- A step for an actor that has no thread yet makes the thread, named after the actor. -/
def enlist (stage : Stage) (actor : Thread) : Stage :=
  if stage.world.threads.contains actor then stage
  else { stage with world := stage.world.enlist actor (some actor) }

/-- Operations of the session, for an actor that has one and is not inside a closure. -/
def sessionOp (stage : Stage) (actor : Thread) (session : Session) (isSpawned : Bool) (op : Op) :
    Stage :=
  match op with
  | .yieldNow => stage.plan actor .single .yieldNow
  | .yieldMany 0 => stage.reply actor (.passes 0)
  | .yieldMany (left + 1) => stage.plan actor (.yields left 0) .yieldNow
  | .openWindow => stage.plan actor .single .openWindow
  | .closeWindow => stage.plan actor .single .closeWindow
  | .endSession => stage.plan actor .single .endSession
  | .sharedGet => stage.plan actor .single (.read .session)
  | .sharedSet value => stage.plan actor .single (.write .session value)
  | .describeSession => stage.reply actor (.session session.isRunning session.describe)
  | .dropSession =>
    if isSpawned then stage.reply actor (.refused .noSession)
    else stage.plan actor .single .dropSession
  | .panicWithSession text =>
    if isSpawned then stage.reply actor (.refused .noSession)
    else stage.plan actor .single (.unwindSession (.raised (.text text)))
  | .openClosure => stage.plan actor .opening .openWindow
  | _ => stage.reply actor (.refused .badOp)

/-- What is left of an operation once none that needs no session has matched. -/
def otherOp (stage : Stage) (actor : Thread) (op : Op) : Stage :=
  let self := stage.thread actor
  match op, (stage.actors.get actor).isInClosure, self.isSpawned, self.session with
  | .closeClosure result, true, _, _ =>
    (stage.setClosure actor false).plan actor (.closing result) .closeWindow
  | .panicInClosure, true, _, _ =>
    (stage.setClosure actor false).reply actor (.panicked (.raised (.text "closure panicked")))
  | _, true, _, _ => stage.reply actor (.refused .inClosure)
  | .returnFromBody, _, true, _ => stage.plan actor .single (.finish none)
  | .panicInBody payload, _, true, _ => stage.plan actor .single (.finish (some (.raised payload)))
  | op, _, isSpawned, some session => stage.sessionOp actor session isSpawned op
  | _, _, _, none => stage.reply actor (.refused .noSession)

/-- Through the newest guard, if there is one. -/
def guardOp (stage : Stage) (actor : Thread) (call : Call Int64) : Stage :=
  if 0 < (stage.thread actor).guards then stage.plan actor .single call
  else stage.reply actor (.refused .noGuard)

def describeGuard (value : Int64) : String :=
  "ControllerGuard(Cell \x7b value: " ++ toString value ++ " \x7d)"

/-- Starts an operation of an actor whose thread is free to act. -/
def begin (stage : Stage) (actor : Thread) (op : Op) : Stage :=
  let self := stage.thread actor
  let lock := stage.world.lock
  match op with
  | .acquire => stage.plan actor .single .acquire
  | .tryAcquire => stage.plan actor .single .tryAcquire
  | .release none => stage.guardOp actor .release
  | .release (some index) =>
    if 0 ≤ index && index < self.guards then stage.plan actor .single .release
    else stage.reply actor (.refused .noGuard)
  | .get => stage.guardOp actor (.read .guard)
  | .set value => stage.guardOp actor (.write .guard value)
  | .describeGuard =>
    stage.reply actor <|
      if 0 < self.guards then .text (describeGuard lock.value) else .refused .noGuard
  | .requestShutdown => stage.plan actor .single .requestShutdown
  | .query =>
    stage.reply actor (.identity (lock.isWorker actor) (lock.mutex.isHeldBy actor) lock.worker)
  | .describeLock => stage.reply actor (.text lock.describe)
  | .stats => stage.reply actor (.stats (lock.stats.values.take 4))
  | .adopt => stage.plan actor .single .adopt
  | .spawn child => stage.plan actor .single (.spawn child)
  | .join child =>
    if self.handles.contains child then stage.plan actor .single (.join child)
    else stage.reply actor (.refused .noHandle)
  | .handle child =>
    stage.reply actor <|
      if self.handles.contains child then
        .handle (stage.thread child).activity.isFinished child
      else .refused .noHandle
  | op => stage.otherOp actor op

/-- How far an actor has come, from the replies that came in. -/
def progress (stage : Stage) (actor : Thread) : Progress :=
  match stage.replies.find? (·.actor == actor) with
  | some woken => .replied woken.reply woken.log
  | none => if stage.isSleeping actor then .sleeping else .blocked

/-- The outcome of a settled step. -/
def report (stage : Stage) (actor : Thread) : Outcome :=
  let others := stage.replies.filter (·.actor != actor)
  .report (stage.progress actor) (others.mergeSort fun left right ↦ left.actor ≤ right.actor)
    (.of stage.world.lock)

/-- Runs a step that was begun until every thread has settled. -/
def conclude (build : Build) (stage : Stage) (actor : Thread) : Outcome × Stage :=
  let settled := stage.settle build actor
  (settled.report actor, { settled with replies := [] })

/-- Whether an actor cannot spawn another one under a name. -/
def isTaken (stage : Stage) (actor child : Thread) : Bool :=
  child == actor || child == coordinator || stage.world.threads.contains child

/-- Carries an operation out, unless its actor cannot be asked for it. -/
def act (build : Build) (stage : Stage) (actor : Thread) (op : Op) : Outcome × Stage :=
  match op, (stage.thread actor).activity with
  | .wake, .busy _ .sleeping =>
    conclude build ((stage.advance? build actor).getD stage) actor
  | .wake, _ => (.refused .notSleeping, stage)
  | _, .busy _ _ => (.refused .busy, stage)
  | _, .finished _ => (.refused .finished, stage)
  | .spawn child, .idle =>
    if stage.isTaken actor child then (.refused .actorExists, stage)
    else conclude build ((stage.enlist actor).begin actor (.spawn child)) actor
  | op, .idle => conclude build ((stage.enlist actor).begin actor op) actor

def coordinate (stage : Stage) : Coordination → Outcome × Stage
  | .pause millis =>
    let clock := stage.world.clock + millis * 1000000
    (.paused, { stage with world := { stage.world with clock } })
  | .longestAtLeast micros =>
    (.measured (micros ≤ stage.world.lock.stats.longestWait.toNat), stage)
  | .config => (.config stage.world.lock.config, stage)
  | .unknown => (.refused .badOp, stage)

def step (build : Build) (stage : Stage) : Step → Outcome × Stage
  | .act actor op => stage.act build actor op
  | .coordinate coordination => stage.coordinate coordination

/-- The outcomes of the steps of a script, and the stage after the last of them. -/
def run (build : Build) (stage : Stage) : List Step → List Outcome × Stage
  | [] => ([], stage)
  | step :: steps =>
    let (outcome, next) := stage.step build step
    let (outcomes, last) := run build next steps
    (outcome :: outcomes, last)

end Stage

end YieldLock.Script
