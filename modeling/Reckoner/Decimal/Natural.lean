import Reckoner.Decimal.Numeral

/-! # Whole numbers of 64 bits, read from text -/

namespace Reckoner

/-- Reads digits, after a plus sign if there is one, that write a number below `2 ^ 64`. -/
def readNatural? (text : List Char) : Option Nat :=
  let digits := if text.head? = some '+' then text.tail else text
  if digits ≠ [] ∧ digits.all Char.isDigit ∧ Decimal.ofDigits digits < 0x10000000000000000 then
    some (Decimal.ofDigits digits)
  else none

end Reckoner
