/-!
# Shortest decimals

A finite binary number of 64 bits stands for all reals that round to it. Its
shortest decimal is the one with the fewest digits among those reals, and of
several the one nearest to the number; of two that are equally near, the one whose
last digit is even. All comparisons are made in whole numbers.
-/

namespace YieldLock.Decimal

/-- The magnitude `mantissa * 2 ^ exponent` of a finite number, with its sign. -/
structure Binary where
  isNegative : Bool
  mantissa : Nat
  exponent : Int
  deriving DecidableEq, Repr

/-- The digits of a decimal and the place of the first of them as a power of ten. -/
structure Digits where
  digits : List Char
  place : Int
  deriving DecidableEq, Repr

namespace Binary

/-- The bit in front of the fraction, which a number of full precision does not store. -/
def leadingBit : Nat := 1 <<< 52

/-- Takes the sign bit, the eleven bits of the biased exponent and the 52 of the fraction apart. -/
def ofBits (bits : UInt64) : Binary :=
  let fraction : Nat := bits.toNat % leadingBit
  let biased : Nat := bits.toNat / leadingBit % 2048
  { isNegative := 2048 ≤ bits.toNat / leadingBit
    mantissa := if biased = 0 then fraction else fraction + leadingBit
    exponent := if biased = 0 then -1074 else (biased : Int) - 1075 }

/-- Four times the number and the ends of the reals that round to it, over a common denominator. -/
structure Interval where
  low : Nat
  value : Nat
  high : Nat
  denominator : Nat
  hasEnds : Bool

def interval (number : Binary) : Interval :=
  let isLeast := number.mantissa = leadingBit && -1074 < number.exponent
  let unit := number.exponent - 2
  let up := 1 <<< unit.toNat
  { low := (4 * number.mantissa - if isLeast then 1 else 2) * up
    value := 4 * number.mantissa * up
    high := (4 * number.mantissa + 2) * up
    denominator := 1 <<< (-unit).toNat
    hasEnds := number.mantissa % 2 = 0 }

end Binary

/-- The power of ten with an exponent from zero on; one below zero. -/
def tens (exponent : Int) : Nat := Nat.pow 10 exponent.toNat

namespace Binary.Interval

/-- Whether `count * 10 ^ place` rounds to the number. -/
def holds (interval : Interval) (count : Nat) (place : Int) : Bool :=
  let scaled := count * tens place * interval.denominator
  let low := interval.low * tens (-place)
  let high := interval.high * tens (-place)
  if interval.hasEnds then low ≤ scaled && scaled ≤ high else low < scaled && scaled < high

/-- How far `count * 10 ^ place` is from the number, up to a common factor. -/
def distance (interval : Interval) (count : Nat) (place : Int) : Nat :=
  let scaled := count * tens place * interval.denominator
  let value := interval.value * tens (-place)
  (scaled - value) + (value - scaled)

/-- The power of ten of the number's first digit. -/
def leading (interval : Interval) : Int :=
  if interval.denominator ≤ interval.value then
    ((Nat.toDigits 10 (interval.value / interval.denominator)).length : Int) - 1
  else
    -(((Nat.toDigits 10 ((interval.denominator - 1) / interval.value)).length : Nat) : Int)

/-- Whether the first of two neighbouring multiples of `10 ^ place` is to be preferred. -/
def prefersLower (interval : Interval) (below : Nat) (place : Int) : Bool :=
  let down := interval.distance below place
  let up := interval.distance (below + 1) place
  down < up || (down = up && below % 2 = 0)

/-- The nearer of the number's two neighbours among the multiples of `10 ^ place`, if one of
them rounds to it. -/
def neighbour? (interval : Interval) (place : Int) : Option Nat :=
  let below := interval.value * tens (-place) / (interval.denominator * tens place)
  match interval.holds below place, interval.holds (below + 1) place with
  | true, true => some (if interval.prefersLower below place then below else below + 1)
  | true, false => some below
  | false, true => some (below + 1)
  | false, false => none

/-- Tries one digit more each time, up to a number of digits. -/
def search (interval : Interval) (place : Int) : Nat → Option (Nat × Int)
  | 0 => none
  | more + 1 =>
    match interval.neighbour? place with
    | some count => some (count, place)
    | none => search interval (place - 1) more

end Binary.Interval

/-- Drops the zeros at the end. -/
def trimmed (digits : List Char) : List Char :=
  match (digits.reverse.dropWhile (· == '0')).reverse with
  | [] => ['0']
  | kept => kept

/-- The shortest decimal of a number's magnitude. -/
def shortest (number : Binary) : Digits :=
  if number.mantissa = 0 then ⟨['0'], 0⟩
  else
    let interval := number.interval
    match interval.search interval.leading 18 with
    | some (count, place) =>
      let digits := Nat.toDigits 10 count
      ⟨trimmed digits, place + digits.length - 1⟩
    | none => ⟨['0'], 0⟩

end YieldLock.Decimal
