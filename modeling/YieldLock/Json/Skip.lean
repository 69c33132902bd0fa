import YieldLock.Json.Number
import YieldLock.Json.Text

/-!
# Skipping values

A value that nobody asks for is skipped whatever it holds and however deep it is
nested. The containers that are still open are kept in a list, innermost first.
-/

namespace YieldLock.Json

def isBlank (c : Char) : Bool := c = ' ' || c = '\n' || c = '\t' || c = '\r'

def skipBlanks (text : List Char) : List Char := text.dropWhile isBlank

/-- Reads the rest of a literal. -/
def ident : List Char → List Char → Except ReadError (List Char)
  | [], text => .ok text
  | _ :: _, [] => .error .endOfValue
  | expected :: more, c :: rest =>
    if c = expected then ident more rest else .error .expectedIdent

inductive Container where
  | list
  | object
  deriving DecidableEq, Repr

namespace Container

def closing : Container → Char
  | list => ']'
  | object => '}'

def atEnd : Container → ReadError
  | list => .endOfList
  | object => .endOfObject

def expectedNext : Container → ReadError
  | list => .expectedCommaOrBracket
  | object => .expectedCommaOrBrace

end Container

/-- Skips a key and its colon. -/
def skipKey (text : List Char) : Except ReadError (List Char) :=
  match skipBlanks text with
  | [] => .error .endOfObject
  | '"' :: rest => do
    match skipBlanks (← skipText rest) with
    | ':' :: rest => .ok rest
    | [] => .error .endOfObject
    | _ => .error .expectedColon
  | _ => .error .keyNotString

/-- Skips what stands before the next value of a container. -/
def enter (container : Container) (text : List Char) : Except ReadError (List Char) :=
  match container with
  | .list => .ok text
  | .object => skipKey text

/-- Closes containers behind a value, up to the next value of one that goes on. -/
def closeContainers : List Container → List Char → Except ReadError (List Container × List Char)
  | [], text => .ok ([], text)
  | container :: outer, text =>
    match skipBlanks text with
    | [] => .error container.atEnd
    | c :: rest =>
      if c = ',' then (enter container rest).map (container :: outer, ·)
      else if c = container.closing then closeContainers outer rest
      else .error container.expectedNext

/-- Opens a container; one that is empty is closed again at once. -/
def openContainer (container : Container) (outer : List Container) (text : List Char) :
    Except ReadError (List Container × List Char) :=
  match skipBlanks text with
  | [] => .error container.atEnd
  | c :: rest =>
    if c = container.closing then closeContainers outer rest
    else (enter container (c :: rest)).map (container :: outer, ·)

/-- Skips the scalar or the opening of the container at the head of a text. -/
def skipHead (outer : List Container) (text : List Char) :
    Except ReadError (List Container × List Char) :=
  match skipBlanks text with
  | [] => .error .endOfValue
  | 'n' :: rest => do closeContainers outer (← ident ['u', 'l', 'l'] rest)
  | 't' :: rest => do closeContainers outer (← ident ['r', 'u', 'e'] rest)
  | 'f' :: rest => do closeContainers outer (← ident ['a', 'l', 's', 'e'] rest)
  | '"' :: rest => do closeContainers outer (← skipText rest)
  | '[' :: rest => openContainer .list outer rest
  | '{' :: rest => openContainer .object outer rest
  | c :: rest =>
    if c = '-' || c.isDigit then do
      let (_, rest) ← numeral .invalidNumber (c :: rest)
      closeContainers outer rest
    else .error .expectedValue

/-- Skips values until no container is open; every round takes at least one character. -/
def skipRounds : Nat → List Container → List Char → Except ReadError (List Char)
  | 0, _, _ => .error .endOfValue
  | fuel + 1, outer, text => do
    match ← skipHead outer text with
    | ([], rest) => .ok rest
    | (container :: outer, rest) => skipRounds fuel (container :: outer) rest

/-- Skips the value at the head of a text that is no longer than `bound`. -/
def skipValue (bound : Nat) (text : List Char) : Except ReadError (List Char) :=
  skipRounds bound [] text

end YieldLock.Json
