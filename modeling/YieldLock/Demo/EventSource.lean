import YieldLock.Demo.Action

/-!
# The source of events

A thread that plays the part of a windowing system. It sends a given number of
events, resting before each of them, and then the wish to quit. It stops early if
nobody receives its events any more.
-/

namespace YieldLock.Demo.EventSource

/-- The name of the thread that sends the events. -/
def threadName : Thread := "ui-events"

/-- What is told if the source's thread unwinds instead of returning. -/
def panickedMessage : String := "UI event source thread panicked"

/-- Every third event sets the border, all others look at the machine. -/
def eventAt (index : Nat) : UiEvent :=
  if index % 3 = 2 then .poke (UInt8.ofNat (index % 16)) else .inspect

/-- All that a source with this many events sends. -/
def sequence (count : Nat) : List UiEvent := (List.range count).map eventAt ++ [.quit]

inductive Stage where
  | resting (index : Nat)
  | offering (index : Nat)
  | stopped
  deriving DecidableEq, Repr

/-- The stage before an event, or before the wish to quit, which is sent without a rest. -/
def stageAt (count index : Nat) : Stage :=
  if index < count then .resting index else .offering index

def program (count : Nat) (interval : Duration) : Program Stage where
  action
    | .resting _ => .rest interval
    | .offering index => .send (if index < count then eventAt index else .quit)
    | .stopped => .idle
  resume
    | .resting index, _ => .offering index
    | .offering index, .sent true =>
      if index < count then stageAt count (index + 1) else .stopped
    | _, _ => .stopped

/-- A source and a receiver at the two ends of a channel. -/
structure Feed where
  channel : Channel
  stage : Stage
  /-- What the receiver has taken, the newest event first. -/
  taken : List UiEvent := []
  /-- How many events the receiver still takes; all that come if there is no number. -/
  left : Option Nat
  deriving DecidableEq, Repr

namespace Feed

/-- One step of the source. -/
def send? (count : Nat) (feed : Feed) : Option Feed :=
  match (program count .zero).action feed.stage with
  | .send event =>
    (feed.channel.send? event).map fun (isReceived, channel) ↦
      { feed with channel, stage := (program count .zero).resume feed.stage (.sent isReceived) }
  | .rest _ => some { feed with stage := (program count .zero).resume feed.stage .continued }
  | _ =>
    if feed.channel.hasSender then some { feed with channel := feed.channel.dropSender }
    else none

/-- One step of the receiver, which leaves once it has taken enough. -/
def take? (feed : Feed) : Option Feed :=
  if !feed.channel.hasReceiver then none
  else if feed.left = some 0 then some { feed with channel := feed.channel.dropReceiver }
  else
    feed.channel.receive?.map fun (delivery, channel) ↦
      match delivery with
      | .event event =>
        { feed with
          channel, taken := event :: feed.taken, left := feed.left.map (· - 1) }
      | .ended => { feed with channel := channel.dropReceiver }
      | .pending => { feed with channel }

/-- Lets both ends move for as long as one can, up to a number of moves. -/
def runWithin (count : Nat) : Nat → Feed → Feed
  | 0, feed => feed
  | fuel + 1, feed =>
    match (feed.take?).orElse fun _ ↦ feed.send? count with
    | some next => runWithin count fuel next
    | none => feed

end Feed

/-- The events that a receiver gets which takes a number of them and then leaves. -/
def received (count : Nat) (capacity take : Option Nat) : List UiEvent :=
  let start : Feed := { channel := { capacity }, stage := stageAt count 0, left := take }
  (start.runWithin count (4 * count + 16)).taken.reverse

theorem length_sequence (count : Nat) : (sequence count).length = count + 1 := by
  simp [sequence]

end YieldLock.Demo.EventSource
