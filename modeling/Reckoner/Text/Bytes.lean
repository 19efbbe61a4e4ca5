/-! # Lengths and places in bytes of UTF-8 -/

namespace Reckoner

def byteLength : List Char → Nat
  | [] => 0
  | c :: text => c.utf8Size + byteLength text

/-- Splits a text behind `n` bytes. There is no such place inside a character or past the end. -/
def splitBytes? (n : Nat) : List Char → Option (List Char × List Char)
  | [] => if n = 0 then some ([], []) else none
  | c :: text =>
    if n = 0 then some ([], c :: text)
    else if n < c.utf8Size then none
    else (splitBytes? (n - c.utf8Size) text).map fun (left, right) => (c :: left, right)

/-- The bytes from `start` up to `stop`, if they are whole characters. -/
def bytesBetween? (start stop : Nat) (text : List Char) : Option (List Char) := do
  let (left, _) ← splitBytes? stop text
  let (_, piece) ← splitBytes? start left
  return piece

end Reckoner
