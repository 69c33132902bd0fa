import YieldLock.Demo.Channel
import YieldLock.Demo.Machine
import YieldLock.Demo.Settings
import YieldLock.World

/-!
# What the threads of the demonstration do

A thread's program says what the thread does next and how it goes on from the
reply. An action is a call to the lock, which may take several steps, or a single
step beside it: a line in the log, a rest, or an event sent or received.
-/

namespace YieldLock.Demo

/-- The lines that the demonstration logs itself. -/
inductive Notice where
  | starting (settings : Settings)
  | status (machine : Machine)
  | borderSet (color : UInt8)
  | quitRequested
  | hostCall (frame : UInt64)
  | handled (events : UInt64) (frames : UInt64)
  deriving DecidableEq, Repr

/-- A line in the log of a thread, from the lock or from the demonstration. -/
inductive Line where
  | lock (entry : Entry)
  | notice (notice : Notice)
  deriving DecidableEq, Repr

inductive Action where
  | call (call : Call Machine)
  | log (notice : Notice)
  | rest (span : Duration)
  | send (event : UiEvent)
  | receive
  /-- There is nothing to do, now or ever. -/
  | idle
  deriving DecidableEq, Repr

inductive Reply where
  | answered (answer : Answer Machine)
  /-- A line is logged, or a rest is over. -/
  | continued
  | sent (isReceived : Bool)
  | received (event : Option UiEvent)
  deriving DecidableEq, Repr

/-- A program for a thread, with the stages that it goes through. -/
structure Program (ρ : Type) where
  action : ρ → Action
  resume : ρ → Reply → ρ

namespace Notice

def level : Notice → Level
  | starting _ | status _ | quitRequested | handled _ _ => .info
  | borderSet _ | hostCall _ => .debug

def text : Notice → String
  | starting settings => "Starting mainlock runtime with " ++ settings.describe
  | status machine =>
      "status: frame " ++ toString machine.frame ++ " (" ++ toString machine.cycles ++
        " cycles), border " ++ toString machine.border
  | borderSet color => "border colour set to " ++ toString color
  | quitRequested => "Quit requested, waiting for the machine to stop..."
  | hostCall frame => "frame " ++ toString frame ++ ": blocking host call"
  | handled events frames =>
      "Handled " ++ toString events ++ " UI events over " ++ toString frames ++ " frames."

end Notice

namespace Line

def text : Line → String
  | .lock entry => entry.line
  | .notice said => said.level.line said.text

end Line

/-- What the lock, the channel and the log are like after a step of a thread. -/
structure Deed where
  world : World Machine
  channel : Channel
  reply : Option Reply
  lines : List Line
  deriving DecidableEq, Repr

namespace Deed

/-- A step of a call. -/
def ofEvents (channel : Channel) (after : World Machine × List (Event Machine)) : Deed where
  world := after.1
  channel
  reply := (after.2.findSome? Event.answer?).map .answered
  lines := (after.2.filterMap Event.entry?).map .lock

/-- A step beside the lock. -/
def beside (world : World Machine) (channel : Channel) (reply : Option Reply)
    (lines : List Line) : Deed :=
  { world, channel, reply, lines }

end Deed

/-- One step of a thread: the next step of its call, or the start of its next action. -/
def perform? (build : Build) (world : World Machine) (channel : Channel) (name : Thread)
    (action : Action) : Option Deed :=
  match (world.thread name).activity, action with
  | .busy _ _, _ => (world.step? build name).map (.ofEvents channel)
  | .finished _, _ => none
  | .idle, .call call => (world.call? build name call).map (.ofEvents channel)
  | .idle, .log notice => some (.beside world channel (some .continued) [.notice notice])
  | .idle, .rest _ => some (.beside world channel (some .continued) [])
  | .idle, .send event =>
    (channel.send? event).map fun (isReceived, channel) ↦
      .beside world channel (some (.sent isReceived)) []
  | .idle, .receive =>
    channel.receive?.map fun (delivery, channel) ↦
      match delivery with
      | .event event => .beside world channel (some (.received (some event))) []
      | .ended => .beside world channel (some (.received none)) []
      | .pending => .beside world channel none []
  | .idle, .idle => none

end YieldLock.Demo
