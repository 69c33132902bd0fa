import YieldLock.Config
import YieldLock.Json.Duration

/-!
# Configurations as values

Every field of a configuration is optional. What is read is laid over the
standard configuration: a field that is given has its value, and any other has
the standard one.
-/

namespace YieldLock.Json

structure ConfigParts where
  yieldSleep : Option Duration := none
  workerName : Option String := none
  warnOnWorkerAcquire : Option Bool := none
  deriving DecidableEq, Repr

namespace ConfigParts

/-- Lays the parts that are given on a configuration. -/
def laidOn (parts : ConfigParts) (config : Config) : Config where
  yieldSleep := parts.yieldSleep.getD config.yieldSleep
  workerName := parts.workerName.getD config.workerName
  warnOnWorkerAcquire := parts.warnOnWorkerAcquire.getD config.warnOnWorkerAcquire

end ConfigParts

def configShape (build : Build) : Shape ConfigParts Config where
  expected := "struct MainlockConfig"
  fields :=
    [{ name := "yield_sleep"
       isGiven := fun parts ↦ parts.yieldSleep.isSome
       read := fun parts text ↦ (durationShape.read text).map fun (span, rest) ↦
        ({ parts with yieldSleep := some span }, rest) },
     { name := "worker_thread_name"
       isGiven := fun parts ↦ parts.workerName.isSome
       read := fun parts text ↦ (readString text).map fun (name, rest) ↦
        ({ parts with workerName := some name }, rest) },
     { name := "warn_on_worker_acquire"
       isGiven := fun parts ↦ parts.warnOnWorkerAcquire.isSome
       read := fun parts text ↦ (readBoolean text).map fun (warn, rest) ↦
        ({ parts with warnOnWorkerAcquire := some warn }, rest) }]
  start := {}
  skipsUnknown := true
  expectedLength := none
  complete := fun parts ↦ .ok (parts.laidOn (.standard build))

def readConfig (build : Build) (text : String) : Except ReadError Config :=
  (configShape build).readAll text

def writeConfig (config : Config) : String :=
  String.ofList <| writeObject
    [("yield_sleep", writeDuration config.yieldSleep),
      ("worker_thread_name", writeString config.workerName),
      ("warn_on_worker_acquire", writeBoolean config.warnOnWorkerAcquire)]

end YieldLock.Json
