import YieldLock.Json.Error

/-!
# Strings in a text

A string is read one character at a time by a small machine, so that its end is
found in one pass. An escape stands for one character; two hexadecimal escapes
that form a surrogate pair stand for one together. A string that is only skipped
may hold surrogates that do not pair.
-/

namespace YieldLock.Json

/-- Where the reader of a string stands between two characters. -/
inductive TextState where
  | plain
  /-- Behind a backslash. -/
  | escape
  /-- Hexadecimal digits are to come, `left` of them; `lead` is the first half of a pair. -/
  | hex (lead : Option Nat) (left : Nat) (code : Nat)
  /-- The second half of a pair is to come, from its backslash on. -/
  | pairBackslash (lead : Nat)
  | pairLetter (lead : Nat)
  deriving DecidableEq, Repr

def hexValue? (c : Char) : Option Nat :=
  if '0' ≤ c && c ≤ '9' then some (c.toNat - '0'.toNat)
  else if 'a' ≤ c && c ≤ 'f' then some (c.toNat - 'a'.toNat + 10)
  else if 'A' ≤ c && c ≤ 'F' then some (c.toNat - 'A'.toNat + 10)
  else none

/-- The character that a one-letter escape stands for. -/
def shortEscape? : Char → Option Char
  | '"' => some '"'
  | '\\' => some '\\'
  | '/' => some '/'
  | 'b' => some '\x08'
  | 'f' => some '\x0c'
  | 'n' => some '\n'
  | 'r' => some '\r'
  | 't' => some '\t'
  | _ => none

def isLead (code : Nat) : Bool := 0xd800 ≤ code && code ≤ 0xdbff

def isTrail (code : Nat) : Bool := 0xdc00 ≤ code && code ≤ 0xdfff

/-- How many bytes a text takes. -/
def byteLength (text : List Char) : Nat := text.foldl (fun bytes c ↦ bytes + c.utf8Size) 0

/-- The state behind a complete hexadecimal escape, or the character that it completes. -/
def complete (lead : Option Nat) (code : Nat) : Except ReadError (Option Char × TextState) :=
  match lead with
  | none =>
    if isTrail code then .error .loneSurrogate
    else if isLead code then .ok (none, .pairBackslash code)
    else .ok (some (Char.ofNat code), .plain)
  | some first =>
    if isTrail code then
      .ok (some (Char.ofNat ((first - 0xd800) * 0x400 + (code - 0xdc00) + 0x10000)), .plain)
    else .error .loneSurrogate

/-- Reads the rest of a string; `done` holds the characters read so far in reverse. -/
def readTextFrom (state : TextState) (done : List Char) :
    List Char → Except ReadError (List Char × List Char)
  | [] => .error .endOfString
  | c :: rest =>
    match state with
    | .plain =>
      if c = '"' then .ok (done.reverse, rest)
      else if c = '\\' then readTextFrom .escape done rest
      else if c.toNat < 0x20 then .error .controlCharacter
      else readTextFrom .plain (c :: done) rest
    | .escape =>
      if c = 'u' then readTextFrom (.hex none 4 0) done rest
      else
        match shortEscape? c with
        | some meant => readTextFrom .plain (meant :: done) rest
        | none => .error .invalidEscape
    | .hex lead left code =>
      match hexValue? c with
      | none =>
        -- Four bytes are looked at together, and at the end of the text there may be fewer.
        if byteLength (c :: rest) < left then .error .endOfString else .error .invalidEscape
      | some digit =>
        match left with
        | 0 | 1 =>
          match complete lead (code * 16 + digit) with
          | .error error => .error error
          | .ok (some meant, next) => readTextFrom next (meant :: done) rest
          | .ok (none, next) => readTextFrom next done rest
        | left + 1 => readTextFrom (.hex lead left (code * 16 + digit)) done rest
    | .pairBackslash lead =>
      if c = '\\' then readTextFrom (.pairLetter lead) done rest
      else .error .unexpectedEndOfEscape
    | .pairLetter lead =>
      if c = 'u' then readTextFrom (.hex (some lead) 4 0) done rest
      else .error .unexpectedEndOfEscape

/-- Reads a string from behind its opening quote. -/
def readText (text : List Char) : Except ReadError (List Char × List Char) :=
  readTextFrom .plain [] text

/-- Skips the rest of a string. -/
def skipTextFrom (state : TextState) : List Char → Except ReadError (List Char)
  | [] => .error .endOfString
  | c :: rest =>
    match state with
    | .escape =>
      if c = 'u' then skipTextFrom (.hex none 4 0) rest
      else if (shortEscape? c).isSome then skipTextFrom .plain rest
      else .error .invalidEscape
    | .hex lead left code =>
      if (hexValue? c).isSome then
        match left with
        | 0 | 1 => skipTextFrom .plain rest
        | left + 1 => skipTextFrom (.hex lead left code) rest
      else if byteLength (c :: rest) < left then .error .endOfString
      else .error .invalidEscape
    | _ =>
      if c = '"' then .ok rest
      else if c = '\\' then skipTextFrom .escape rest
      else if c.toNat < 0x20 then .error .controlCharacter
      else skipTextFrom .plain rest

/-- Skips a string from behind its opening quote. -/
def skipText (text : List Char) : Except ReadError (List Char) := skipTextFrom .plain text

end YieldLock.Json
