import YieldLock.Demo.Settings
import YieldLock.Json.Config

/-!
# Settings as values

Every setting is optional and is laid over the standard settings. A lock that is
given is read over the standard configuration of a lock, which differs from the
lock of the standard settings in the worker's name.
-/

namespace YieldLock.Json

open Demo

structure SettingsParts where
  lock : Option Config := none
  frameTime : Option UInt64 := none
  hostCallEvery : Option UInt64 := none
  hostCallTime : Option UInt64 := none
  uiEvents : Option UInt64 := none
  uiEventInterval : Option UInt64 := none
  deriving DecidableEq, Repr

namespace SettingsParts

/-- Lays the parts that are given on settings. -/
def laidOn (parts : SettingsParts) (settings : Settings) : Settings where
  lock := parts.lock.getD settings.lock
  frameTime := parts.frameTime.getD settings.frameTime
  hostCallEvery := parts.hostCallEvery.getD settings.hostCallEvery
  hostCallTime := parts.hostCallTime.getD settings.hostCallTime
  uiEvents := parts.uiEvents.getD settings.uiEvents
  uiEventInterval := parts.uiEventInterval.getD settings.uiEventInterval

end SettingsParts

/-- A setting that is a number, with the way to look it up and to fill it in. -/
def settingField (name type : String) (get : SettingsParts → Option UInt64)
    (fill : SettingsParts → UInt64 → SettingsParts) : Field SettingsParts where
  name
  isGiven := fun parts ↦ (get parts).isSome
  read := fun parts text ↦ (readWord64 type text).map fun (value, rest) ↦
    (fill parts value, rest)

def settingsShape (build : Build) : Shape SettingsParts Settings where
  expected := "struct RuntimeConfig"
  fields :=
    [{ name := "lock"
       isGiven := fun parts ↦ parts.lock.isSome
       read := fun parts text ↦ ((configShape build).read text).map fun (lock, rest) ↦
        ({ parts with lock := some lock }, rest) },
     settingField "frame_time_ms" "u64" (·.frameTime)
      fun parts value ↦ { parts with frameTime := some value },
     settingField "host_call_every" "u64" (·.hostCallEvery)
      fun parts value ↦ { parts with hostCallEvery := some value },
     settingField "host_call_time_ms" "u64" (·.hostCallTime)
      fun parts value ↦ { parts with hostCallTime := some value },
     settingField "ui_events" "usize" (·.uiEvents)
      fun parts value ↦ { parts with uiEvents := some value },
     settingField "ui_event_interval_ms" "u64" (·.uiEventInterval)
      fun parts value ↦ { parts with uiEventInterval := some value }]
  start := {}
  skipsUnknown := true
  expectedLength := none
  complete := fun parts ↦ .ok (parts.laidOn (.standard build))

def readSettings (build : Build) (text : String) : Except ReadError Settings :=
  (settingsShape build).readAll text

end YieldLock.Json
