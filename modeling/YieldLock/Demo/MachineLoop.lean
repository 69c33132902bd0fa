import YieldLock.Demo.Action

/-!
# The machine's loop

The body of the worker. It runs a frame while it holds the lock, makes a blocking
host call now and then, and rests after every frame, both in a window. Then it
yields. It stops at the first check point that tells it to, and touches the
machine only between a check point and the next window.
-/

namespace YieldLock.Demo

/-- What a window is opened for. -/
inductive Window where
  /-- A blocking host call. -/
  | host
  /-- The rest after a frame. -/
  | frame
  deriving DecidableEq, Repr

structure Pacing where
  frameTime : Duration
  /-- Frames between two blocking host calls; none are made if it is zero. -/
  hostCallEvery : UInt64
  hostCallTime : Duration
  deriving DecidableEq, Repr

namespace Pacing

def ofSettings (settings : Settings) : Pacing where
  frameTime := .ofMillis settings.frameTime
  hostCallEvery := settings.hostCallEvery
  hostCallTime := .ofMillis settings.hostCallTime

/-- The time spent in a window. -/
def timeIn (pacing : Pacing) : Window → Duration
  | .host => pacing.hostCallTime
  | .frame => pacing.frameTime

/-- Whether a host call follows the frame of a number. -/
def isHostFrame (pacing : Pacing) (frame : UInt64) : Bool :=
  0 < pacing.hostCallEvery && frame % pacing.hostCallEvery == 0

end Pacing

namespace MachineLoop

inductive Stage where
  /-- The thread is not yet the worker. -/
  | starting
  /-- About to load the machine for a frame. -/
  | loading
  /-- About to store the machine with the cycles of the frame. -/
  | addingCycles (machine : Machine)
  /-- About to load the machine once more, to count the frame. -/
  | counting
  /-- About to store the machine with the frame counted. -/
  | addingFrame (machine : Machine)
  /-- About to look at the number of the frame. -/
  | looking
  | announcing (frame : UInt64)
  | opening (window : Window)
  | inside (window : Window)
  | closing (window : Window)
  | yielding
  | leaving (outcome : Option Panic)
  | ended
  deriving DecidableEq, Repr

/-- The stage after a sum was worked out, which may have been too large. -/
def afterSum (next : Machine → Stage) : Except Panic Machine → Stage
  | .ok machine => next machine
  | .error panic => .leaving (some panic)

def action (pacing : Pacing) : Stage → Action
  | .starting => .idle
  | .loading => .call (.read .session)
  | .addingCycles machine => .call (.write .session machine)
  | .counting => .call (.read .session)
  | .addingFrame machine => .call (.write .session machine)
  | .looking => .call (.read .session)
  | .announcing frame => .log (.hostCall frame)
  | .opening _ => .call .openWindow
  | .inside window => .rest (pacing.timeIn window)
  | .closing _ => .call .closeWindow
  | .yielding => .call .yieldNow
  | .leaving outcome => .call (.finish outcome)
  | .ended => .idle

/-- The stage after a window. -/
def afterWindow : Window → Stage
  | .host => .opening .frame
  | .frame => .yielding

/-- The stage after a call was answered. -/
def answered (build : Build) (pacing : Pacing) : Stage → Answer Machine → Stage
  | .starting, .started => .loading
  | .leaving _, _ => .ended
  | _, .panicked panic => .leaving (some panic)
  | .loading, .value machine => afterSum .addingCycles (machine.addCycles build)
  | .addingCycles _, _ => .counting
  | .counting, .value machine => afterSum .addingFrame (machine.countFrame build)
  | .addingFrame _, _ => .looking
  | .looking, .value machine =>
    if pacing.isHostFrame machine.frame then .announcing machine.frame else .opening .frame
  | .opening window, _ => .inside window
  | .closing window, .flow .proceed => afterWindow window
  | .yielding, .flow .proceed => .loading
  | .closing _, .flow .exit | .yielding, .flow .exit => .leaving none
  | _, _ => .ended

def resume (build : Build) (pacing : Pacing) (stage : Stage) (reply : Reply) : Stage :=
  match stage, reply with
  | stage, .answered answer => answered build pacing stage answer
  | .announcing _, _ => .opening .host
  | .inside window, _ => .closing window
  | _, _ => .ended

def program (build : Build) (pacing : Pacing) : Program Stage where
  action := action pacing
  resume := resume build pacing

end MachineLoop

end YieldLock.Demo
