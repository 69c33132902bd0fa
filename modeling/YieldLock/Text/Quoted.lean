import YieldLock.Text.Printable

/-!
# Quoted text

A text between double quotes on one line. The quote, the backslash and five
controls have short escapes, any other unprintable character is written as its
code point in hexadecimal, and every printable character stands for itself.
-/

namespace YieldLock.Text

/-- The lower-case hexadecimal digits of a number, without leading zeros. -/
def hexDigits (code : Nat) : List Char := Nat.toDigits 16 code

def escapeQuoted (c : Char) : List Char :=
  match c with
  | '\x00' => ['\\', '0']
  | '\t' => ['\\', 't']
  | '\n' => ['\\', 'n']
  | '\r' => ['\\', 'r']
  | '"' => ['\\', '"']
  | '\\' => ['\\', '\\']
  | c =>
    if isPrintable c then [c]
    else ['\\', 'u', '{'] ++ hexDigits c.toNat ++ ['}']

def quoted (text : String) : String :=
  String.ofList ('"' :: text.toList.flatMap escapeQuoted ++ ['"'])

end YieldLock.Text
