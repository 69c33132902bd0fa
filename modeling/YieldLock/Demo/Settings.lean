import YieldLock.Config

/-!
# Settings of a demonstration run

The configuration of the lock and the pace of the machine and of the events.
All times are in milliseconds.
-/

namespace YieldLock.Demo

structure Settings where
  lock : Config
  frameTime : UInt64
  /-- Frames between two blocking host calls; none are made if it is zero. -/
  hostCallEvery : UInt64
  hostCallTime : UInt64
  uiEvents : UInt64
  uiEventInterval : UInt64
  deriving DecidableEq, Repr

namespace Settings

/-- The settings of a run that is given none. -/
def standard (build : Build) : Settings where
  lock := { Config.standard build with workerName := "machine" }
  frameTime := 20
  hostCallEvery := 50
  hostCallTime := 5
  uiEvents := 12
  uiEventInterval := 100

def record (settings : Settings) : Text.Record where
  name := "RuntimeConfig"
  fields :=
    [("lock", settings.lock.describe),
      ("frame_time_ms", toString settings.frameTime),
      ("host_call_every", toString settings.hostCallEvery),
      ("host_call_time_ms", toString settings.hostCallTime),
      ("ui_events", toString settings.uiEvents),
      ("ui_event_interval_ms", toString settings.uiEventInterval)]

def describe (settings : Settings) : String := settings.record.inline

end Settings

end YieldLock.Demo
