import Reckoner.Binary64.Rounding

/-! # Decimal numerals

A numeral is an optional sign, digits, and optionally a point with digits after it, which may be
missing. Only the ASCII digits count.
-/

namespace Reckoner

/-- The number `coefficient / 10 ^ places`, with a sign that zero has too. -/
structure Decimal where
  negative : Bool
  coefficient : Nat
  places : Nat
deriving DecidableEq, Repr

namespace Decimal

/-- The number that a run of digits writes. -/
def ofDigits (digits : List Char) : Nat :=
  digits.foldl (fun n c => 10 * n + (c.toNat - '0'.toNat)) 0

/-- The sign before a numeral, and the rest. -/
def splitSign : List Char → Bool × List Char
  | '-' :: rest => (true, rest)
  | '+' :: rest => (false, rest)
  | text => (false, text)

/-- Reads digits with an optional point and fraction, up to the end of the text. -/
def readUnsigned? (negative : Bool) (text : List Char) : Option Decimal :=
  let whole := text.takeWhile Char.isDigit
  if whole.isEmpty then none
  else
    match text.dropWhile Char.isDigit with
    | [] => some ⟨negative, ofDigits whole, 0⟩
    | '.' :: fraction =>
      if fraction.all Char.isDigit then
        some ⟨negative, ofDigits (whole ++ fraction), fraction.length⟩
      else none
    | _ => none

/-- Reads a text that is a numeral from end to end. -/
def read? (text : List Char) : Option Decimal :=
  readUnsigned? (splitSign text).1 (splitSign text).2

/-- The value nearest to the number. -/
def toBinary64 (d : Decimal) : Binary64 :=
  .ofRatio d.negative (d.coefficient * Binary64.unitsPerOne) (Nat.pow 10 d.places)

end Decimal

end Reckoner
