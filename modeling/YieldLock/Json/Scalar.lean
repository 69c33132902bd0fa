import YieldLock.Json.Skip

/-!
# Reading scalars

A value of the wrong type is read as far as it takes to say what it is. A number
is checked against the range of the word that is asked for once it is complete.
-/

namespace YieldLock.Json

/-- Reads a value from the head of a text and returns the rest. -/
abbrev Reader (α : Type) := List Char → Except ReadError (α × List Char)

def Number.found : Number → Found
  | natural value => .integer value.toNat
  | negative value => .integer value
  | float bits => .float bits

/-- The error for a text whose first value is not of the expected type. -/
def wrongType (expected : String) (text : List Char) : ReadError :=
  let found : Except ReadError Found :=
    match text with
    | 'n' :: rest => (ident ['u', 'l', 'l'] rest).map fun _ ↦ .null
    | 't' :: rest => (ident ['r', 'u', 'e'] rest).map fun _ ↦ .boolean true
    | 'f' :: rest => (ident ['a', 'l', 's', 'e'] rest).map fun _ ↦ .boolean false
    | '"' :: rest => (readText rest).map fun (text, _) ↦ .string (String.ofList text)
    | '[' :: _ => .ok .sequence
    | '{' :: _ => .ok .map
    | c :: rest =>
      if c = '-' || c.isDigit then (readNumber (c :: rest)).map fun (number, _) ↦ number.found
      else .error .expectedValue
    | [] => .error .endOfValue
  match found with
  | .ok found => .invalidType found expected
  | .error error => error

def isNumberStart (c : Char) : Bool := c = '-' || c.isDigit

/-- Reads an unsigned number of at most `bound`. -/
def readUnsigned (bound : Nat) (expected : String) : Reader Nat := fun text ↦
  match skipBlanks text with
  | [] => .error .endOfValue
  | c :: rest =>
    if isNumberStart c then do
      match ← readNumber (c :: rest) with
      | (.natural value, rest) =>
        if value.toNat ≤ bound then .ok (value.toNat, rest)
        else .error (.invalidValue value.toNat expected)
      | (.negative value, _) => .error (.invalidValue value expected)
      | (.float bits, _) => .error (.invalidType (.float bits) expected)
    else .error (wrongType expected (c :: rest))

/-- Reads a word of 64 bits, under the name of its type. -/
def readWord64 (expected : String) : Reader UInt64 := fun text ↦
  (readUnsigned (UInt64.size - 1) expected text).map fun (value, rest) ↦
    (UInt64.ofNat value, rest)

def readWord32 : Reader UInt32 := fun text ↦
  (readUnsigned (UInt32.size - 1) "u32" text).map fun (value, rest) ↦ (UInt32.ofNat value, rest)

def readBoolean : Reader Bool := fun text ↦
  match skipBlanks text with
  | [] => .error .endOfValue
  | 't' :: rest => (ident ['r', 'u', 'e'] rest).map fun rest ↦ (true, rest)
  | 'f' :: rest => (ident ['a', 'l', 's', 'e'] rest).map fun rest ↦ (false, rest)
  | text => .error (wrongType "a boolean" text)

def readString : Reader String := fun text ↦
  match skipBlanks text with
  | [] => .error .endOfValue
  | '"' :: rest => (readText rest).map fun (text, rest) ↦ (String.ofList text, rest)
  | text => .error (wrongType "a string" text)

end YieldLock.Json
