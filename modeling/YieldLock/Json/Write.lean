import YieldLock.Text.Quoted

/-!
# Writing values

Values are written without blanks. In a string the quote, the backslash and the
controls are escaped and nothing else is.
-/

namespace YieldLock.Json

def escapeChar (c : Char) : List Char :=
  if c = '"' then ['\\', '"']
  else if c = '\\' then ['\\', '\\']
  else if c = '\x08' then ['\\', 'b']
  else if c = '\x0c' then ['\\', 'f']
  else if c = '\n' then ['\\', 'n']
  else if c = '\r' then ['\\', 'r']
  else if c = '\t' then ['\\', 't']
  else if c.toNat < 0x20 then
    ['\\', 'u', '0', '0', Nat.digitChar (c.toNat / 16), Nat.digitChar (c.toNat % 16)]
  else [c]

def writeString (text : String) : List Char :=
  '"' :: text.toList.flatMap escapeChar ++ ['"']

def writeNat (value : Nat) : List Char := Nat.toDigits 10 value

def writeBoolean (value : Bool) : List Char :=
  if value then ['t', 'r', 'u', 'e'] else ['f', 'a', 'l', 's', 'e']

/-- The members of an object, from the first on. -/
def writeMembers : List (String × List Char) → List Char
  | [] => []
  | [(name, value)] => writeString name ++ ':' :: value
  | (name, value) :: more => writeString name ++ ':' :: value ++ ',' :: writeMembers more

def writeObject (members : List (String × List Char)) : List Char :=
  '{' :: writeMembers members ++ ['}']

end YieldLock.Json
