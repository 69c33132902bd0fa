/-!
# Durations

A duration is a number of whole seconds and a remainder below one second in
nanoseconds, so equal durations are equal values. A pair of seconds and
nanoseconds that carries past the largest number of seconds has no duration.
-/

namespace YieldLock

structure Duration where
  secs : UInt64
  nanos : Fin 1000000000
  deriving DecidableEq, Repr

namespace Duration

def zero : Duration := ⟨0, 0⟩

instance : Inhabited Duration := ⟨zero⟩

/-- The whole length in nanoseconds. -/
def toNanos (span : Duration) : Nat := span.secs.toNat * 1000000000 + span.nanos.val

def isZero (span : Duration) : Bool := span == zero

/-- Nanoseconds of one second and more carry into the seconds. -/
def ofParts? (secs : UInt64) (nanos : UInt32) : Option Duration :=
  let total := secs.toNat + nanos.toNat / 1000000000
  if total < UInt64.size then
    some ⟨UInt64.ofNat total, ⟨nanos.toNat % 1000000000, Nat.mod_lt _ (by decide)⟩⟩
  else
    none

def ofMillis (millis : UInt64) : Duration :=
  ⟨millis / 1000,
    ⟨millis.toNat % 1000 * 1000000, by
      have := Nat.mod_lt millis.toNat (show 0 < 1000 by decide)
      omega⟩⟩

/-- The default sleep of a contended yield. -/
def hundredMicros : Duration := ⟨0, 100000⟩

/-- The digits of `part` behind a point, `width` of them, less the zeros at the end. -/
def decimals (width part : Nat) : List Char :=
  let digits := Nat.toDigits 10 part
  let padded := List.replicate (width - digits.length) '0' ++ digits
  (padded.reverse.dropWhile (· == '0')).reverse

def amount (whole : Nat) (width part : Nat) (unit : String) : String :=
  match decimals width part with
  | [] => toString whole ++ unit
  | digits => toString whole ++ "." ++ String.ofList digits ++ unit

/-- Written in the largest unit of which there is at least one, with the decimals needed. -/
def describe (span : Duration) : String :=
  let nanos := span.nanos.val
  if 0 < span.secs then amount span.secs.toNat 9 nanos "s"
  else if 1000000 ≤ nanos then amount (nanos / 1000000) 6 (nanos % 1000000) "ms"
  else if 1000 ≤ nanos then amount (nanos / 1000) 3 (nanos % 1000) "µs"
  else amount nanos 0 0 "ns"

theorem isZero_iff_toNanos (span : Duration) : span.isZero = true ↔ span.toNanos = 0 := by
  obtain ⟨secs, nanos⟩ := span
  simp only [isZero, zero, beq_iff_eq, Duration.mk.injEq, toNanos, Nat.add_eq_zero_iff,
    Nat.mul_eq_zero, Fin.ext_iff, ← UInt64.toNat_inj]
  simp

theorem toNanos_ofParts? {secs : UInt64} {nanos : UInt32} {span : Duration}
    (h : ofParts? secs nanos = some span) :
    span.toNanos = secs.toNat * 1000000000 + nanos.toNat := by
  simp only [ofParts?] at h
  split at h
  · rename_i hlt
    obtain rfl := Option.some.inj h
    simp only [toNanos, UInt64.toNat_ofNat_of_lt' hlt]
    omega
  · cases h

theorem ofParts?_eq_none_iff (secs : UInt64) (nanos : UInt32) :
    ofParts? secs nanos = none ↔ UInt64.size ≤ secs.toNat + nanos.toNat / 1000000000 := by
  simp only [ofParts?]
  split <;> simp <;> omega

end Duration

end YieldLock
