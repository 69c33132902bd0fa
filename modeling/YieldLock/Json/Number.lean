import YieldLock.Decimal.Shortest
import YieldLock.Json.Error

/-!
# Numbers in a text

A number without a point and an exponent is whole. It stays whole while it fits
a word of 64 bits, signed if it is negative; any other number is a floating point
number. Digits that a word has no room for move the point instead.
-/

namespace YieldLock.Json

/-- The parts of a number as they are written. -/
structure Numeral where
  isNegative : Bool
  whole : List Char
  fraction : Option (List Char)
  /-- The sign and the digits of the exponent. -/
  exponent : Option (Bool × List Char)
  deriving DecidableEq, Repr

inductive Number where
  | natural (value : UInt64)
  /-- A number below zero that fits a signed word. -/
  | negative (value : Int)
  | float (bits : UInt64)
  deriving DecidableEq, Repr

/-- The digits at the head of a text, at least one of them. -/
def digits (atEnd : ReadError) (text : List Char) : Except ReadError (List Char × List Char) :=
  match text.span Char.isDigit with
  | ([], []) => .error atEnd
  | ([], _ :: _) => .error .invalidNumber
  | found => .ok found

/-- The exponent at the head of a text, if there is one. -/
def exponent (atEnd : ReadError) (text : List Char) :
    Except ReadError (Option (Bool × List Char) × List Char) :=
  match text with
  | 'e' :: rest | 'E' :: rest =>
    let (isNegative, rest) := match rest with
      | '-' :: rest => (true, rest)
      | '+' :: rest => (false, rest)
      | rest => (false, rest)
    (digits atEnd rest).map fun (found, rest) ↦ (some (isNegative, found), rest)
  | rest => .ok (none, rest)

/-- The point and the digits behind it at the head of a text, if there is a point. -/
def fraction (atEnd : ReadError) (text : List Char) :
    Except ReadError (Option (List Char) × List Char) :=
  match text with
  | '.' :: rest => (digits atEnd rest).map fun (found, rest) ↦ (some found, rest)
  | rest => .ok (none, rest)

/-- The digits before the point: a zero stands alone. -/
def whole (atEnd : ReadError) (text : List Char) : Except ReadError (List Char × List Char) :=
  match text with
  | '0' :: rest =>
    match rest with
    | c :: _ => if c.isDigit then .error .invalidNumber else .ok (['0'], rest)
    | [] => .ok (['0'], [])
  | rest => digits atEnd rest

/-- The number at the head of a text; `atEnd` is the error where digits are missing at the end. -/
def numeral (atEnd : ReadError) (text : List Char) : Except ReadError (Numeral × List Char) := do
  let (isNegative, text) := match text with
    | '-' :: rest => (true, rest)
    | rest => (false, rest)
  let (whole, text) ← whole atEnd text
  let (fraction, text) ← fraction atEnd text
  let (exponent, text) ← exponent atEnd text
  return ({ isNegative, whole, fraction, exponent }, text)

def digitValue (c : Char) : Nat := c.toNat - '0'.toNat

/-- The number that digits denote. -/
def valueOf (digits : List Char) : Nat :=
  digits.foldl (fun value c ↦ value * 10 + digitValue c) 0

/-- Takes in digits while the word has room; the rest of the digits is left. -/
def absorb (word : Nat) : List Char → Nat × List Char
  | [] => (word, [])
  | c :: rest =>
    let next := word * 10 + digitValue c
    if next < UInt64.size then absorb next rest else (word, c :: rest)

/-- The power of ten as a floating point number. -/
def powerOfTen (exponent : Nat) : Float := Float.ofScientific 1 false exponent

/-- Divides by a power of ten, in parts where the power itself is out of range. -/
def divided (number : Float) (exponent : Nat) : Float :=
  if exponent ≤ 308 then number / powerOfTen exponent
  else
    let part := number / powerOfTen 308
    if part == 0 then part else divided part (exponent - 308)
termination_by exponent

/-- The magnitude `word * 10 ^ exponent`, unless it is out of range. -/
def magnitude? (word : Nat) (exponent : Int) : Option Float :=
  let number := (UInt64.ofNat word).toFloat
  if exponent < 0 then some (divided number exponent.natAbs)
  else if exponent ≤ 308 then
    let product := number * powerOfTen exponent.natAbs
    if product.isInf then none else some product
  else if word = 0 then some number
  else none

namespace Numeral

def isWhole (numeral : Numeral) : Bool := numeral.fraction.isNone && numeral.exponent.isNone

/-- The word that the digits fill, and the power of ten that it is to be multiplied by. -/
def scaled (numeral : Numeral) : Nat × Int :=
  let (word, left) := absorb 0 numeral.whole
  let fraction := numeral.fraction.getD []
  let (word, unread) := absorb word fraction
  let point := (left.length : Int) - (fraction.length - unread.length : Nat)
  let exponent := match numeral.exponent with
    | none => 0
    | some (isNegative, digits) =>
      if isNegative then -(valueOf digits : Int) else (valueOf digits : Int)
  (word, point + exponent)

/-- The magnitude of a whole number, if a word has room for it. -/
def word? (numeral : Numeral) : Option Nat :=
  match numeral.isWhole, absorb 0 numeral.whole with
  | true, (word, []) => some word
  | _, _ => none

def float (numeral : Numeral) : Except ReadError Number :=
  let (word, exponent) := numeral.scaled
  match magnitude? word exponent with
  | some number => .ok (.float (if numeral.isNegative then -number else number).toBits)
  | none => .error .numberOutOfRange

/-- The number that a numeral denotes. -/
def number (numeral : Numeral) : Except ReadError Number :=
  match numeral.word?, numeral.isNegative with
  | some word, false => .ok (.natural (UInt64.ofNat word))
  | some word, true =>
    if 0 < word && word ≤ 0x8000000000000000 then .ok (.negative (-(word : Int)))
    else numeral.float
  | none, _ => numeral.float

end Numeral

/-- Reads a number. -/
def readNumber (text : List Char) : Except ReadError (Number × List Char) := do
  let (numeral, rest) ← numeral .endOfValue text
  return (← numeral.number, rest)

end YieldLock.Json
