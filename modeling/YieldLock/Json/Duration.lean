import YieldLock.Duration
import YieldLock.Json.Shape
import YieldLock.Json.Write

/-!
# Durations as values

A duration is written with its seconds and its nanoseconds. Both are needed, and
a pair that no duration has is refused once both are read.
-/

namespace YieldLock.Json

structure DurationParts where
  secs : Option UInt64 := none
  nanos : Option UInt32 := none
  deriving DecidableEq, Repr

namespace DurationParts

def complete (parts : DurationParts) : Except ReadError Duration :=
  match parts.secs, parts.nanos with
  | none, _ => .error (.missingField "secs")
  | some _, none => .error (.missingField "nanos")
  | some secs, some nanos =>
    match Duration.ofParts? secs nanos with
    | some span => .ok span
    | none => .error .durationOverflow

end DurationParts

def durationShape : Shape DurationParts Duration where
  expected := "struct Duration"
  fields :=
    [{ name := "secs"
       isGiven := fun parts ↦ parts.secs.isSome
       read := fun parts text ↦ (readWord64 "u64" text).map fun (secs, rest) ↦
        ({ parts with secs := some secs }, rest) },
     { name := "nanos"
       isGiven := fun parts ↦ parts.nanos.isSome
       read := fun parts text ↦ (readWord32 text).map fun (nanos, rest) ↦
        ({ parts with nanos := some nanos }, rest) }]
  start := {}
  skipsUnknown := false
  expectedLength := some "struct Duration"
  complete := DurationParts.complete

def writeDuration (span : Duration) : List Char :=
  writeObject [("secs", writeNat span.secs.toNat), ("nanos", writeNat span.nanos.val)]

end YieldLock.Json
