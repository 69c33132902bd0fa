/-!
# Plain text

A terminal takes some characters as commands: the control characters, and the
sequences that an escape character opens. The plain text is what is left of a text
without them. Tabs and line breaks stay. One inside a sequence suspends it: what
follows is plain as well, up to the next control character, with which the sequence
goes on, or up to a character beyond ASCII, with which it is over. A sequence that
carries a text of its own swallows all that with the text.
-/

namespace YieldLock.Text.Terminal

/-- The sequence that a character stands in, and how far it has come. -/
inductive Place where
  | plain
  | escape
  /-- An escape sequence that has begun with a space or a mark. -/
  | marked
  /-- The parameters of a control sequence, up to the letter that ends it. -/
  | control
  /-- A text for the terminal itself, such as a title, up to a bell. -/
  | title
  | deviceStart
  /-- The parameters of a text for a device, up to the letter before that text. -/
  | deviceParameter
  /-- The spaces and marks behind the parameters of a text for a device. -/
  | deviceMark
  /-- A text for a device, or one without a meaning. -/
  | payload
  deriving DecidableEq, Repr

structure Cursor where
  place : Place := .plain
  /-- A tab or a line break has suspended the sequence. -/
  isSuspended : Bool := false
  deriving DecidableEq, Repr

def isBreak (c : Char) : Bool := c = '\t' || c = '\n' || c = '\x0c' || c = '\r'

/-- Whether a character outside all sequences belongs to the plain text. -/
def isPlain (c : Char) : Bool := isBreak c || (' ' ≤ c && c ≠ '\x7f')

def isAscii (c : Char) : Bool := c ≤ '\x7f'

def isMark (c : Char) : Bool := ' ' ≤ c && c ≤ '/'

def isParameter (c : Char) : Bool := '0' ≤ c && c ≤ '?'

/-- The parameters that can only stand in front of all others. -/
def isPrivate (c : Char) : Bool := '<' ≤ c && c ≤ '?'

/-- The characters that can end a control sequence. -/
def isFinal (c : Char) : Bool := '@' ≤ c && c ≤ '~'

/-- Whether a character ends the text for a device: its encoding has the byte that does. -/
def isTerminator (c : Char) : Bool := (String.utf8EncodeChar c).contains 0x9c

namespace Place

/-- What the first character after an escape opens. -/
def opened (c : Char) : Place :=
  if isMark c then marked
  else if c = '[' then control
  else if c = ']' then title
  else if c = 'P' then deviceStart
  else if c = 'X' || c = '^' || c = '_' then payload
  else if isParameter c || isFinal c then plain
  else escape

/-- What a character of a sequence leads to. -/
def next : Place → Char → Place
  | plain, _ => plain
  | escape, c => opened c
  | marked, c => if isParameter c || isFinal c then plain else marked
  | control, c => if isFinal c then plain else control
  | title, c => if c = '\x07' then plain else title
  | deviceStart, c =>
    if isMark c then deviceMark
    else if isParameter c then deviceParameter
    else if isFinal c then payload
    else deviceStart
  | deviceParameter, c =>
    if isMark c then deviceMark
    else if isPrivate c || isFinal c then payload
    else deviceParameter
  | deviceMark, c => if isParameter c || isFinal c then payload else deviceMark
  | payload, c => if isTerminator c then plain else payload

/-- Whether a sequence swallows tabs and line breaks. -/
def swallowsBreaks : Place → Bool
  | plain | escape | marked | control => false
  | title | deviceStart | deviceParameter | deviceMark | payload => true

end Place

namespace Cursor

/-- Takes a character in and tells whether it stays; an escape opens a sequence anywhere. -/
def step (cursor : Cursor) (c : Char) : Cursor × Bool :=
  if c = '\x1b' then ({ place := .escape }, false)
  else if c = '\x18' || c = '\x1a' then ({}, false)
  else if cursor.place = .plain || cursor.isSuspended then
    if !isPlain c then ({ cursor with isSuspended := false }, false)
    else if isAscii c then (cursor, true)
    else ({}, true)
  else if isBreak c && !cursor.place.swallowsBreaks then
    ({ cursor with isSuspended := true }, true)
  else ({ place := cursor.place.next c }, false)

end Cursor

/-- The plain text from a cursor on. -/
def plainFrom (cursor : Cursor) : List Char → List Char
  | [] => []
  | c :: rest =>
    let (next, stays) := cursor.step c
    if stays then c :: plainFrom next rest else plainFrom next rest

/-- A text without what a terminal takes as commands. -/
def plain (text : String) : String := String.ofList (plainFrom {} text.toList)

/-- The lines of a text in which every line is ended; a carriage return may be part of the end. -/
def lines (text : String) : List String :=
  (text.splitOn "\n").map fun line ↦
    match line.toList.reverse with
    | '\r' :: kept => String.ofList kept.reverse
    | _ => line

end YieldLock.Text.Terminal
