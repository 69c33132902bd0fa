import YieldLock.Demo.Controller
import YieldLock.Demo.EventSource
import YieldLock.Demo.MachineLoop

/-!
# A demonstration run

Three threads: the main thread, which starts the other two, plays the controller
and reports at the end; the worker, which runs the machine; and the source of the
events. They share the lock and a channel. Any order of their steps is a run, and
one order, in which the worker comes last, is taken to execute it.
-/

namespace YieldLock.Demo

def mainThread : Thread := "main"

def workerThread : Thread := "worker"

/-- How the main thread's part ended, once the run had started. -/
inductive Ending where
  | completed (handled frames : UInt64)
  | workerFailed (error : LockError)
  | panicked (panic : Panic)
  deriving DecidableEq, Repr

/-- The stages of the main thread. -/
inductive MainStage where
  | spawning
  | controlling (stage : Controller.Stage)
  | joining (handled : UInt64)
  | awaitingSource (handled : UInt64)
  | acquiring (handled : UInt64)
  | looking (handled : UInt64)
  | releasing (handled frames : UInt64)
  | reporting (handled frames : UInt64)
  | done (ending : Ending)
  deriving DecidableEq, Repr

namespace MainStage

def action : MainStage → Action
  | spawning => .call (.spawn workerThread)
  | controlling stage => Controller.action stage
  | joining _ => .call (.join workerThread)
  | awaitingSource _ => .idle
  | acquiring _ => .call .acquire
  | looking _ => .call (.read .guard)
  | releasing _ _ => .call .release
  | reporting handled frames => .log (.handled handled frames)
  | done _ => .idle

def resume (stage : MainStage) (reply : Reply) : MainStage :=
  match stage, reply with
  | spawning, .answered (.panicked panic) => done (.panicked panic)
  | spawning, _ => controlling (.awaiting 0)
  | controlling stage, reply =>
    let next := Controller.resume stage reply
    match next.result? with
    | some handled => joining handled
    | none => controlling next
  | joining _, .answered (.joined (some error)) => done (.workerFailed error)
  | joining handled, _ => awaitingSource handled
  | awaitingSource handled, _ => acquiring handled
  | acquiring handled, _ => looking handled
  | looking handled, .answered (.value machine) => releasing handled machine.frame
  | looking handled, _ => releasing handled 0
  | releasing handled frames, _ => reporting handled frames
  | reporting handled frames, _ => done (.completed handled frames)
  | done ending, _ => done ending

end MainStage

/-- The threads of a run, in the order in which they are tried. -/
inductive Role where
  | main
  | source
  | worker
  deriving DecidableEq, Repr

structure Run where
  settings : Settings
  world : World Machine
  channel : Channel := .bounded
  main : MainStage := .spawning
  /-- There is no source before the main thread starts it. -/
  source : Option EventSource.Stage := none
  worker : MachineLoop.Stage := .starting
  deriving DecidableEq, Repr

namespace Run

/-- What the worker's thread leaves in the log when it has given up the lock. -/
def teardownLine : String := Level.info.line "Machine thread released its resources."

/-- A run that is about to start, unless the lock cannot work with its configuration. -/
def start (settings : Settings) : Except LockError Run := do
  let lock ← Lock.withConfig {} settings.lock
  return { settings, world := { lock := lock.withTeardown (.note teardownLine) } }

def eventCount (run : Run) : Nat := run.settings.uiEvents.toNat

/-- The source starts with the controller's loop, and the loop takes the receiver with it. -/
def enter (run : Run) (stage : MainStage) : Run :=
  match run.main, stage with
  | .spawning, .controlling _ =>
    { run with main := stage, source := some (EventSource.stageAt run.eventCount 0) }
  | .controlling _, .joining _ =>
    { run with main := stage, channel := run.channel.dropReceiver }
  | _, _ => { run with main := stage }

def mainStep? (build : Build) (run : Run) : Option (Run × List Line) :=
  match run.main, run.source with
  | .awaitingSource _, some .stopped => some (run.enter (run.main.resume .continued), [])
  | _, _ =>
    (perform? build run.world run.channel mainThread run.main.action).map fun deed ↦
      let next := { run with world := deed.world, channel := deed.channel }
      (deed.reply.elim next fun reply ↦ next.enter (run.main.resume reply), deed.lines)

def sourceStep? (build : Build) (run : Run) : Option (Run × List Line) :=
  let program := EventSource.program run.eventCount (.ofMillis run.settings.uiEventInterval)
  run.source.bind fun stage ↦
    let action := program.action stage
    (perform? build run.world run.channel EventSource.threadName action).map fun deed ↦
      ({ run with
          world := deed.world
          channel := deed.channel
          source := some (deed.reply.elim stage (program.resume stage)) },
        deed.lines)

def workerStep? (build : Build) (run : Run) : Option (Run × List Line) :=
  let program := MachineLoop.program build (.ofSettings run.settings)
  let action := program.action run.worker
  (perform? build run.world run.channel workerThread action).map fun deed ↦
    ({ run with
        world := deed.world
        channel := deed.channel
        worker := deed.reply.elim run.worker (program.resume run.worker) },
      deed.lines)

/-- One step of one of the threads, with the lines that it logs. -/
def step? (build : Build) (run : Run) : Role → Option (Run × List Line)
  | .main => run.mainStep? build
  | .source => run.sourceStep? build
  | .worker => run.workerStep? build

/-- The roles in the order in which they are tried: whose turn at the lock it is comes first. -/
def order (run : Run) : List Role :=
  let first := match run.world.lock.mutex.next? with
    | some name => if name = workerThread then [Role.worker] else [Role.main]
    | none => []
  first ++ [.main, .source, .worker]

/-- Lets the threads move for as long as one can, up to a number of moves. -/
def executeWithin (build : Build) : Nat → Run → List Line → Run × List Line
  | 0, run, logged => (run, logged)
  | fuel + 1, run, logged =>
    match run.order.findSome? (run.step? build) with
    | some (next, lines) => executeWithin build fuel next (lines.reverse ++ logged)
    | none => (run, logged)

/-- Executes a run to its end; while an event is served there is at most one frame. -/
def execute (build : Build) (run : Run) : Run × List Line :=
  let (last, logged) := run.executeWithin build (256 * (run.eventCount + 4)) []
  (last, logged.reverse)

end Run

end YieldLock.Demo
