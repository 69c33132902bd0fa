import YieldLock.Json.Scalar

/-!
# Reading values with named fields

A shape lists the fields of a value in order, and with each field how its value
is read into the parts collected so far. A value is written as an object of its
fields in any order, or as an array of them in that order. What is made of the
parts in the end, and so what a missing field means, is up to the shape.
-/

namespace YieldLock.Json

structure Field (π : Type) where
  name : String
  isGiven : π → Bool
  read : π → Reader π

structure Shape (π α : Type) where
  /-- What a value of another type is told to be instead. -/
  expected : String
  fields : List (Field π)
  /-- The parts while no field is given. -/
  start : π
  /-- Members that are no fields are skipped, or refused. -/
  skipsUnknown : Bool
  /-- What an array that is too short is told to be instead, unless its tail may be missing. -/
  expectedLength : Option String
  complete : π → Except ReadError α

namespace Shape

variable {π α : Type}

/-- Skips the colon between a key and its value. -/
def colon (text : List Char) : Except ReadError (List Char) :=
  match skipBlanks text with
  | ':' :: rest => .ok rest
  | [] => .error .endOfObject
  | _ => .error .expectedColon

/-- Reads the value of a member, from behind its key; the text is no longer than `bound`. -/
def member (shape : Shape π α) (bound : Nat) (key : String) (parts : π) : Reader π := fun text ↦
  match shape.fields.find? (·.name == key) with
  | some field =>
    if field.isGiven parts then .error (.duplicateField field.name)
    else do field.read parts (← colon text)
  | none =>
    if shape.skipsUnknown then do
      let rest ← skipValue bound (← colon text)
      return (parts, rest)
    else .error (.unknownField key (shape.fields.map (·.name)))

/-- Reads the comma in front of a member that is not the first, and the quote that opens its key. -/
def keyStart (isFirst : Bool) (c : Char) (rest : List Char) : Except ReadError (List Char) :=
  if isFirst then
    if c = '"' then .ok rest else .error .keyNotString
  else if c = ',' then
    match skipBlanks rest with
    | '"' :: rest => .ok rest
    | '}' :: _ => .error .trailingComma
    | [] => .error .endOfValue
    | _ => .error .keyNotString
  else .error .expectedCommaOrBrace

/-- Reads the members of an object and its end; every round takes at least one character. -/
def members (shape : Shape π α) : Nat → Bool → π → Reader π
  | 0, _, _, _ => .error .endOfObject
  | fuel + 1, isFirst, parts, text =>
    match skipBlanks text with
    | [] => .error .endOfObject
    | c :: rest =>
      if c = '}' then .ok (parts, rest)
      else do
        let (key, rest) ← readText (← keyStart isFirst c rest)
        let (parts, rest) ← shape.member fuel (String.ofList key) parts rest
        members shape fuel false parts rest

/-- The text from the next element of an array on, if there is one. -/
def elementStart (isFirst : Bool) (text : List Char) : Except ReadError (Option (List Char)) :=
  match skipBlanks text with
  | [] => .error .endOfList
  | c :: rest =>
    if c = ']' then .ok none
    else if isFirst then .ok (some (c :: rest))
    else if c = ',' then
      match skipBlanks rest with
      | ']' :: _ => .error .trailingComma
      | [] => .error .endOfValue
      | rest => .ok (some rest)
    else .error .expectedCommaOrBracket

/-- Reads elements into fields and returns how many there were. -/
def elements : List (Field π) → Bool → π → Reader (π × Nat)
  | [], _, parts, text => .ok ((parts, 0), text)
  | field :: fields, isFirst, parts, text => do
    match ← elementStart isFirst text with
    | none => .ok ((parts, 0), text)
    | some text =>
      let (parts, rest) ← field.read parts text
      let ((parts, count), rest) ← elements fields false parts rest
      return ((parts, count + 1), rest)

/-- The end of an array whose elements have all been read. -/
def arrayEnd (text : List Char) : Except ReadError (List Char) :=
  match skipBlanks text with
  | [] => .error .endOfList
  | ']' :: rest => .ok rest
  | ',' :: rest =>
    match skipBlanks rest with
    | ']' :: _ => .error .trailingComma
    | _ => .error .trailingCharacters
  | _ => .error .trailingCharacters

def readArray (shape : Shape π α) : Reader α := fun text ↦ do
  let ((parts, count), rest) ← elements shape.fields true shape.start text
  match shape.expectedLength with
  | some expected =>
    if count < shape.fields.length then .error (.invalidLength count expected)
  | none => pure ()
  let value ← shape.complete parts
  let rest ← arrayEnd rest
  return (value, rest)

def readObject (shape : Shape π α) : Reader α := fun text ↦ do
  let (parts, rest) ← shape.members (text.length + 1) true shape.start text
  let value ← shape.complete parts
  return (value, rest)

/-- Reads a value of the shape. -/
def read (shape : Shape π α) : Reader α := fun text ↦
  match skipBlanks text with
  | [] => .error .endOfValue
  | '[' :: rest => shape.readArray rest
  | '{' :: rest => shape.readObject rest
  | text => .error (wrongType shape.expected text)

/-- Reads a whole text as one value of the shape. -/
def readAll (shape : Shape π α) (text : String) : Except ReadError α := do
  let (value, rest) ← shape.read text.toList
  match skipBlanks rest with
  | [] => .ok value
  | _ => .error .trailingCharacters

end Shape

end YieldLock.Json
