import YieldLock.Demo.UiEvent

/-!
# Channels of events

A channel delivers events in the order in which they were sent. One with a
capacity makes its sender wait while it is full, and one without any room hands
an event over only to a receiver that waits for it. Sending fails once the
receiver is gone, and receiving ends once the sender is gone and the events are
used up.
-/

namespace YieldLock.Demo

structure Channel where
  events : List UiEvent := []
  /-- How many events can be on the way; any number if there is no capacity. -/
  capacity : Option Nat := none
  hasSender : Bool := true
  hasReceiver : Bool := true
  /-- A receiver waits at a channel without room. -/
  isAwaited : Bool := false
  deriving DecidableEq, Repr

namespace Channel

/-- The channel of the demonstration. -/
def bounded : Channel := { capacity := some 16 }

def hasRoom (channel : Channel) : Bool :=
  match channel.capacity with
  | none => true
  | some 0 => channel.isAwaited && channel.events.isEmpty
  | some capacity => channel.events.length < capacity

/-- Sends an event, tells that the receiver is gone, or has to wait. -/
def send? (channel : Channel) (event : UiEvent) : Option (Bool × Channel) :=
  if !channel.hasReceiver then some (false, channel)
  else if channel.hasRoom then
    some (true, { channel with events := channel.events ++ [event], isAwaited := false })
  else none

/-- What a receiver gets: an event, the end, or nothing yet. -/
inductive Delivery where
  | event (event : UiEvent)
  | ended
  | pending
  deriving DecidableEq, Repr

/-- Receives an event or the end, or has to wait; waiting without room is seen by the sender. -/
def receive? (channel : Channel) : Option (Delivery × Channel) :=
  match channel.events with
  | event :: events => some (.event event, { channel with events })
  | [] =>
    if !channel.hasSender then some (.ended, channel)
    else if channel.capacity = some 0 && !channel.isAwaited then
      some (.pending, { channel with isAwaited := true })
    else none

def dropSender (channel : Channel) : Channel := { channel with hasSender := false }

def dropReceiver (channel : Channel) : Channel := { channel with hasReceiver := false }

end Channel

end YieldLock.Demo
