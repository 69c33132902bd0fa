import YieldLock.Decimal.Shortest
import YieldLock.Text.Quoted

/-!
# Errors in a text that is read

The first error in reading order is the one reported. It is an error of the
syntax, the end of the text in the middle of something, or well-formed text that
does not denote what is asked for.
-/

namespace YieldLock.Json

/-- What was found in place of the value that was expected. -/
inductive Found where
  | null
  | boolean (value : Bool)
  | integer (value : Int)
  | float (bits : UInt64)
  | string (text : String)
  | sequence
  | map
  deriving DecidableEq, Repr

inductive ReadError where
  | endOfValue
  | endOfObject
  | endOfList
  | endOfString
  | expectedValue
  | expectedIdent
  | trailingCharacters
  | trailingComma
  | expectedColon
  | expectedCommaOrBrace
  | expectedCommaOrBracket
  | keyNotString
  | invalidNumber
  | numberOutOfRange
  | invalidEscape
  | unexpectedEndOfEscape
  | loneSurrogate
  | controlCharacter
  | invalidType (found : Found) (expected : String)
  | invalidValue (value : Int) (expected : String)
  | missingField (name : String)
  | duplicateField (name : String)
  | unknownField (name : String) (expected : List String)
  | invalidLength (length : Nat) (expected : String)
  | durationOverflow
  deriving DecidableEq, Repr

inductive ErrorKind where
  | endOfText
  | wrongSyntax
  | wrongData
  deriving DecidableEq, Repr

/-- A floating point number as it is shown in an error. -/
def showFloat (bits : UInt64) : String :=
  let number := Decimal.Binary.ofBits bits
  let { digits, place } := Decimal.shortest number
  let text :=
    if -5 ≤ place && place ≤ 15 then
      if place < 0 then
        '0' :: '.' :: List.replicate (place.natAbs - 1) '0' ++ digits
      else
        let whole := digits.take (place.natAbs + 1)
        let padded := whole ++ List.replicate (place.natAbs + 1 - whole.length) '0'
        match digits.drop (place.natAbs + 1) with
        | [] => padded ++ ['.', '0']
        | part => padded ++ '.' :: part
    else
      let point := match digits with
        | first :: more@(_ :: _) => first :: '.' :: more
        | digits => digits
      point ++ ['e', if place < 0 then '-' else '+'] ++ Nat.toDigits 10 place.natAbs
  String.ofList (if number.isNegative then '-' :: text else text)

namespace Found

def describe : Found → String
  | null => "null"
  | boolean value => "boolean `" ++ toString value ++ "`"
  | integer value => "integer `" ++ toString value ++ "`"
  | float bits => "floating point `" ++ showFloat bits ++ "`"
  | string text => "string " ++ Text.quoted text
  | sequence => "sequence"
  | map => "map"

end Found

namespace ReadError

def kind : ReadError → ErrorKind
  | endOfValue | endOfObject | endOfList | endOfString => .endOfText
  | expectedValue | expectedIdent | trailingCharacters | trailingComma => .wrongSyntax
  | expectedColon | expectedCommaOrBrace | expectedCommaOrBracket | keyNotString => .wrongSyntax
  | invalidNumber | numberOutOfRange | invalidEscape | unexpectedEndOfEscape => .wrongSyntax
  | loneSurrogate | controlCharacter => .wrongSyntax
  | invalidType _ _ | invalidValue _ _ | missingField _ | duplicateField _ => .wrongData
  | unknownField _ _ | invalidLength _ _ | durationOverflow => .wrongData

/-- Names between backquotes, with a word or commas between them. -/
def alternatives : List String → String
  | [one, two] => "`" ++ one ++ "` or `" ++ two ++ "`"
  | names => String.intercalate ", " (names.map fun name ↦ "`" ++ name ++ "`")

def message : ReadError → String
  | endOfValue => "EOF while parsing a value"
  | endOfObject => "EOF while parsing an object"
  | endOfList => "EOF while parsing a list"
  | endOfString => "EOF while parsing a string"
  | expectedValue => "expected value"
  | expectedIdent => "expected ident"
  | trailingCharacters => "trailing characters"
  | trailingComma => "trailing comma"
  | expectedColon => "expected `:`"
  | expectedCommaOrBrace => "expected `,` or `\x7d`"
  | expectedCommaOrBracket => "expected `,` or `]`"
  | keyNotString => "key must be a string"
  | invalidNumber => "invalid number"
  | numberOutOfRange => "number out of range"
  | invalidEscape => "invalid escape"
  | unexpectedEndOfEscape => "unexpected end of hex escape"
  | loneSurrogate => "lone leading surrogate in hex escape"
  | controlCharacter => "control character (\\u0000-\\u001F) found while parsing a string"
  | invalidType found expected => "invalid type: " ++ found.describe ++ ", expected " ++ expected
  | invalidValue value expected =>
      "invalid value: integer `" ++ toString value ++ "`, expected " ++ expected
  | missingField name => "missing field `" ++ name ++ "`"
  | duplicateField name => "duplicate field `" ++ name ++ "`"
  | unknownField name expected =>
    "unknown field `" ++ name ++ "`, expected " ++ alternatives expected
  | invalidLength length expected =>
      "invalid length " ++ toString length ++ ", expected " ++ expected
  | durationOverflow => "overflow deserializing Duration"

end ReadError

end YieldLock.Json
