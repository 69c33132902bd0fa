import YieldLock.Json.Shape
import YieldLock.Json.Write
import YieldLock.Stats

/-!
# Counters as values

All five counters are needed. Members of other names are skipped, and an array
has exactly five elements.
-/

namespace YieldLock.Json

/-- A counter for each name that has been read, in the order of reading. -/
abbrev StatsParts := List (String × UInt64)

def statsField (name : String) : Field StatsParts where
  name
  isGiven := fun parts ↦ (parts.lookup name).isSome
  read := fun parts text ↦ (readWord64 "u64" text).map fun (value, rest) ↦
    (parts ++ [(name, value)], rest)

/-- The counter of a name, which has to have been read. -/
def counter (parts : StatsParts) (name : String) : Except ReadError UInt64 :=
  match parts.lookup name with
  | some value => .ok value
  | none => .error (.missingField name)

def completeStats (parts : StatsParts) : Except ReadError Stats := do
  return {
    acquisitions := ← counter parts "controller_acquisitions"
    yieldCalls := ← counter parts "yield_calls"
    handoffs := ← counter parts "yield_handoffs"
    windows := ← counter parts "yield_windows"
    longestWait := ← counter parts "longest_controller_wait_us" }

def statsShape : Shape StatsParts Stats where
  expected := "struct StatsSnapshot"
  fields := Stats.names.map statsField
  start := []
  skipsUnknown := true
  expectedLength := some "struct StatsSnapshot with 5 elements"
  complete := completeStats

def readStats (text : String) : Except ReadError Stats := statsShape.readAll text

def writeStats (stats : Stats) : String :=
  String.ofList <| writeObject <|
    Stats.names.zip (stats.values.map fun value ↦ writeNat value.toNat)

/-- The counters with each on a line of its own. -/
def writeStatsStacked (stats : Stats) : String :=
  let members := (Stats.names.zip stats.values).map fun (name, value) ↦
    "  " ++ String.ofList (writeString name) ++ ": " ++ toString value
  "\x7b\n" ++ String.intercalate ",\n" members ++ "\n\x7d"

end YieldLock.Json
