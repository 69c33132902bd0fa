import YieldLock.Demo.Controller
import YieldLock.Demo.MachineLoop

/-!
# Rehearsals

A rehearsal runs the machine's loop on a worker and the controller's loop beside
it, with cues. Whenever the worker announces a host call it looks for a cue for
that frame and plays it while it holds the lock: it sends an event and waits
until the controller is queued, asks for shutdown, acquires the lock itself, or
breaks off once the call is on record. After a limited number of host calls it
asks for shutdown anyway.
-/

namespace YieldLock.Demo

inductive Cue where
  | inspect
  | poke (color : UInt8)
  | quit
  | disconnect
  | shutdown
  | workerAcquire
  | fault (text : String)
  | unknown (name : String)
  deriving DecidableEq, Repr

namespace Cue

def name : Cue → String
  | inspect => "inspect"
  | poke _ => "poke"
  | quit => "quit"
  | disconnect => "disconnect"
  | shutdown => "shutdown"
  | workerAcquire => "worker_acquire"
  | fault _ => "fault"
  | unknown name => name

end Cue

/-- What was seen while a cue was played. -/
inductive Sight where
  | nothing
  | queue (waiting : UInt64) (isControllerWaiting : Bool)
  | requested (request : ShutdownRequest)
  | machine (machine : Machine) (isHeld : Bool)
  deriving DecidableEq, Repr

/-- The record of one host call. -/
structure HostCall where
  frame : UInt64
  cue : Option Cue
  sight : Sight := .nothing
  limit : Option ShutdownRequest := none
  deriving DecidableEq, Repr

namespace Rehearsal

structure Plan where
  machine : Machine
  hostCallEvery : UInt64
  /-- Shutdown is requested before the worker starts. -/
  shutsDownFirst : Bool
  limit : Nat
  cues : List (UInt64 × Cue)
  deriving DecidableEq, Repr

/-- The number of host calls before shutdown: twenty if none is given, and from one to 200. -/
def Plan.boundedLimit (limit : Option Nat) : Nat := max 1 (min 200 (limit.getD 20))

/-- Where the worker is: in the machine's loop, or at a host call. -/
inductive WorkerStage where
  | looping (stage : MachineLoop.Stage)
  | sending (call : HostCall) (event : UiEvent)
  | awaitingQueue (call : HostCall)
  | awaitingShutdown (call : HostCall)
  | requesting (call : HostCall)
  | acquiring (call : HostCall)
  | looking (call : HostCall)
  | releasing (call : HostCall)
  | counting (call : HostCall)
  | limiting (call : HostCall)
  deriving DecidableEq, Repr

structure Stage where
  plan : Plan
  world : World Machine
  channel : Channel := {}
  worker : WorkerStage := .looping .starting
  controller : Controller.Stage := .awaiting 0
  calls : List HostCall := []
  lines : List Line := []
  deriving DecidableEq, Repr

def outside : Thread := "outside"

def workerThread : Thread := "worker"

def controllerThread : Thread := "controller"

def pacing (plan : Plan) : Pacing := ⟨.zero, plan.hostCallEvery, .zero⟩

/-- The first stage of a host call. -/
def beginCall (plan : Plan) (frame : UInt64) : WorkerStage :=
  let cue := plan.cues.lookup frame
  let call : HostCall := { frame, cue }
  match cue with
  | some .inspect => .sending call .inspect
  | some (.poke color) => .sending call (.poke color)
  | some .quit => .sending call .quit
  | some .disconnect => .awaitingShutdown call
  | some .shutdown => .requesting call
  | some .workerAcquire => .acquiring call
  | some (.fault _) | some (.unknown _) | none => .counting call

/-- The stage after a host call, which a fault cuts short. -/
def endCall (call : HostCall) : WorkerStage :=
  match call.cue with
  | some (.fault text) => .looping (.leaving (some (.raised (.text text))))
  | _ => .looping (.opening .host)

namespace Stage

/-- Enters a host call into the record. -/
def enter (stage : Stage) (call : HostCall) : Stage :=
  { stage with calls := stage.calls ++ [call], worker := endCall call }

/-- Counts a host call: it is entered, or it is the one at which shutdown is asked for. -/
def count (stage : Stage) (call : HostCall) : Stage :=
  if stage.plan.limit ≤ stage.calls.length + 1 then { stage with worker := .limiting call }
  else stage.enter call

/-- What the worker does next beside the machine's loop, or in it. -/
def workerAction (stage : Stage) : Action :=
  match stage.worker with
  | .looping loop => MachineLoop.action (pacing stage.plan) loop
  | .sending _ event => .send event
  | .requesting _ | .limiting _ => .call .requestShutdown
  | .acquiring _ => .call .acquire
  | .looking _ => .call (.read .guard)
  | .releasing _ => .call .release
  | .awaitingQueue _ | .awaitingShutdown _ | .counting _ => .idle

/-- The stage after the worker's action was replied to. -/
def workerReplied (build : Build) (stage : Stage) (reply : Reply) : Stage :=
  match stage.worker, reply with
  | .looping (.announcing frame), _ => { stage with worker := beginCall stage.plan frame }
  | .looping loop, reply =>
    { stage with worker := .looping (MachineLoop.resume build (pacing stage.plan) loop reply) }
  | .sending call .quit, _ => { stage with worker := .awaitingShutdown call }
  | .sending call _, _ => { stage with worker := .awaitingQueue call }
  | .requesting call, .answered (.requested request) =>
    { stage with worker := .counting { call with sight := .requested request } }
  | .limiting call, .answered (.requested request) =>
    stage.enter { call with limit := some request }
  | .acquiring call, _ => { stage with worker := .looking call }
  | .looking call, .answered (.value machine) =>
    let isHeld := stage.world.lock.mutex.isHeldBy workerThread
    { stage with worker := .releasing { call with sight := .machine machine isHeld } }
  | .releasing call, _ => { stage with worker := .counting call }
  | _, _ => stage

/-- A step of the worker in a stage that waits for something or needs nothing. -/
def workerPause? (stage : Stage) : Option Stage :=
  let lock := stage.world.lock
  match stage.worker with
  | .awaitingQueue call =>
    if lock.mutex.isWaiting controllerThread then
      let sight := Sight.queue lock.waiters.count lock.isControllerWaiting
      some { stage with worker := .counting { call with sight } }
    else none
  | .awaitingShutdown call =>
    if call.cue = some .disconnect && stage.channel.hasSender then
      some { stage with channel := stage.channel.dropSender }
    else if lock.keepAlive.isSet then none
    else some { stage with worker := .counting call }
  | .counting call => some (stage.count call)
  | _ => none

def workerStep? (build : Build) (stage : Stage) : Option Stage :=
  (stage.workerPause?).orElse fun _ ↦
    (perform? build stage.world stage.channel workerThread stage.workerAction).map fun deed ↦
      let next := { stage with world := deed.world, channel := deed.channel }
      deed.reply.elim next (next.workerReplied build)

def controllerStep? (build : Build) (stage : Stage) : Option Stage :=
  let action := Controller.action stage.controller
  (perform? build stage.world stage.channel controllerThread action).map fun deed ↦
    { stage with
      world := deed.world
      channel := deed.channel
      controller := deed.reply.elim stage.controller (Controller.resume stage.controller)
      lines := stage.lines ++ deed.lines }

/-- Once the worker's thread has ended, nobody sends events any more. -/
def closing? (stage : Stage) : Option Stage :=
  if (stage.world.thread workerThread).activity.isFinished && stage.channel.hasSender then
    some { stage with channel := stage.channel.dropSender }
  else none

/-- The controller moves ahead of the worker, except when it is the worker's turn at the lock. -/
def stir? (build : Build) (stage : Stage) : Option Stage :=
  let ready :=
    if stage.world.lock.mutex.next? = some workerThread then stage.workerStep? build else none
  ready.orElse fun _ ↦ (stage.controllerStep? build).orElse fun _ ↦
    (stage.workerStep? build).orElse fun _ ↦ stage.closing?

def runWithin (build : Build) : Nat → Stage → Stage
  | 0, stage => stage
  | fuel + 1, stage =>
    match stage.stir? build with
    | some next => runWithin build fuel next
    | none => stage

end Stage

/-- What a rehearsal came to. -/
structure Result where
  /-- The outcome of the request for shutdown before the worker started. -/
  first : Option ShutdownRequest
  /-- The error with which the worker's thread ended, if any. -/
  error : Option LockError
  stage : Stage
  /-- The outcome of one more request for shutdown at the end. -/
  again : ShutdownRequest
  deriving DecidableEq, Repr

/-- Frames between host calls take sixteen steps each, and host calls and events a few more. -/
def patience (plan : Plan) : Nat :=
  64 * (plan.limit + 4) * (plan.hostCallEvery.toNat + 4)

/-- Runs a rehearsal from the worker's start to its end. -/
def run (build : Build) (plan : Plan) : Result :=
  let lock := Lock.standard build plan.machine
  let needsShutdown := plan.shutsDownFirst || plan.hostCallEvery = 0
  let (request, _, lowered) := lock.requestShutdown outside
  let world : World Machine := { lock := if needsShutdown then lowered else lock }
  let (world, _) := world.spawn outside workerThread
  let last := Stage.runWithin build (patience plan) { plan, world }
  let error := match (last.world.thread workerThread).activity with
    | .finished outcome => outcome.map .ofPanic
    | _ => none
  { first := if needsShutdown then some request else none
    error
    stage := last
    again := (last.world.lock.requestShutdown outside).1 }

end Rehearsal

end YieldLock.Demo
