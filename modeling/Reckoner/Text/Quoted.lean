import Reckoner.Text.Printable

/-! # Quoted text

Between double quotes, a backslash starts an escape; every character that is not printable is
written as its code point in hexadecimal. So quoted text is always one printable line.
-/

namespace Reckoner.Quoted

def escape : Char → List Char
  | '"' => ['\\', '"']
  | '\\' => ['\\', '\\']
  | '\n' => ['\\', 'n']
  | '\r' => ['\\', 'r']
  | '\t' => ['\\', 't']
  | '\x00' => ['\\', '0']
  | c =>
    if isPrintable c then [c]
    else ['\\', 'u', '\x7b'] ++ Nat.toDigits 16 c.toNat ++ ['\x7d']

/-- The text between double quotes. -/
def encode (text : List Char) : List Char := '"' :: text.flatMap escape ++ ['"']

end Reckoner.Quoted
