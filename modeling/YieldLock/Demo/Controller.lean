import YieldLock.Demo.Action

/-!
# The controller's loop

A thread that serves events until one of them is the wish to quit or there are no
more. It acquires the lock for every event that concerns the machine and counts
those events. At the end it asks for shutdown. What the loop comes to, whatever
happens meanwhile, is a fold of the events before the first wish to quit.
-/

namespace YieldLock.Demo.Controller

inductive Stage where
  | awaiting (handled : UInt64)
  | acquiring (event : UiEvent) (handled : UInt64)
  /-- The lock is held; about to load the machine. -/
  | loading (event : UiEvent) (handled : UInt64)
  | painting (machine : Machine) (color : UInt8) (handled : UInt64)
  | reporting (notice : Notice) (handled : UInt64)
  | releasing (handled : UInt64)
  | requesting (handled : UInt64)
  | announcing (handled : UInt64)
  | done (handled : UInt64)
  deriving DecidableEq, Repr

def action : Stage → Action
  | .awaiting _ => .receive
  | .acquiring _ _ => .call .acquire
  | .loading _ _ => .call (.read .guard)
  | .painting machine color _ => .call (.write .guard { machine with border := color })
  | .reporting notice _ => .log notice
  | .releasing _ => .call .release
  | .requesting _ => .call .requestShutdown
  | .announcing _ => .log .quitRequested
  | .done _ => .idle

def resume : Stage → Reply → Stage
  | .awaiting handled, .received (some .quit) => .requesting handled
  | .awaiting handled, .received (some event) => .acquiring event handled
  | .awaiting handled, _ => .requesting handled
  | .acquiring event handled, _ => .loading event handled
  | .loading (.poke color) handled, .answered (.value machine) => .painting machine color handled
  | .loading _ handled, .answered (.value machine) => .reporting (.status machine) handled
  | .loading _ handled, _ => .releasing handled
  | .painting _ color handled, _ => .reporting (.borderSet color) handled
  | .reporting _ handled, _ => .releasing (handled + 1)
  | .releasing handled, _ => .awaiting handled
  | .requesting handled, .answered (.requested .signalled) => .announcing handled
  | .requesting handled, _ => .done handled
  | .announcing handled, _ => .done handled
  | .done handled, _ => .done handled

def program : Program Stage := { action, resume }

/-- The number of events served, once the loop has ended. -/
def Stage.result? : Stage → Option UInt64
  | done handled => some handled
  | _ => none

/-- The events before the first wish to quit. -/
def served (events : List UiEvent) : List UiEvent := events.takeWhile (· ≠ .quit)

/-- The border after events were served: the colour of the last of them that sets one. -/
def borderAfter (border : UInt8) (events : List UiEvent) : UInt8 :=
  events.foldl (fun border event ↦ match event with
    | .poke color => color
    | _ => border) border

/-- A controller at the end of a channel, in a world. -/
structure Desk where
  world : World Machine
  channel : Channel
  stage : Stage := .awaiting 0
  /-- What the controller has logged, the newest line first. -/
  lines : List Line := []
  deriving DecidableEq, Repr

namespace Desk

/-- One step of the controller. -/
def step? (build : Build) (name : Thread) (desk : Desk) : Option Desk :=
  (perform? build desk.world desk.channel name (action desk.stage)).map fun deed ↦
    { world := deed.world
      channel := deed.channel
      stage := deed.reply.elim desk.stage (resume desk.stage)
      lines := deed.lines.reverse ++ desk.lines }

def runWithin (build : Build) (name : Thread) : Nat → Desk → Desk
  | 0, desk => desk
  | fuel + 1, desk =>
    match desk.step? build name with
    | some next => runWithin build name fuel next
    | none => desk

/-- Lets the controller run until it cannot go on; one event takes eight steps at most. -/
def run (build : Build) (name : Thread) (desk : Desk) : Desk :=
  desk.runWithin build name (8 * desk.channel.events.length + 16)

end Desk

/-- What a controller came to on a channel that was filled and closed before. -/
structure Trial where
  handled : Option UInt64
  left : List UiEvent
  lines : List Line
  /-- The world right after the controller's loop. -/
  after : World Machine
  /-- The world once a session of the controller's thread was dropped. -/
  last : World Machine
  deriving DecidableEq, Repr

/-- A call of a thread that nobody holds up, made to its end. -/
def complete (build : Build) (name : Thread) (world : World Machine) (call : Call Machine) :
    World Machine :=
  match world.call? build name call with
  | none => world
  | some (world, _) => finish 8 world
where
  finish : Nat → World Machine → World Machine
    | 0, world => world
    | fuel + 1, world =>
      match world.step? build name with
      | none => world
      | some (world, _) => finish fuel world

/-- Runs the loop on a machine, after a request for shutdown or as the worker if asked to. -/
def tryOut (build : Build) (machine : Machine) (events : List UiEvent)
    (shutsDownFirst isWorker : Bool) : Trial :=
  let name := "controller"
  let world : World Machine := { lock := Lock.standard build machine }
  let world := if shutsDownFirst then complete build name world .requestShutdown else world
  let world := if isWorker then complete build name world .adopt else world
  let desk := Desk.run build name { world, channel := { events, hasSender := false } }
  { handled := desk.stage.result?
    left := desk.channel.events
    lines := desk.lines.reverse
    after := desk.world
    last := complete build name desk.world .dropSession }

end YieldLock.Demo.Controller
