import Reckoner.Decimal.Shortest

/-! # Numbers as text

A finite number is written in full, without an exponent: a minus sign, the whole part, and a point
with the fraction where there is one. Zero keeps its sign.
-/

namespace Reckoner

namespace Decimal

/-- How many grains make one. -/
abbrev grainsPerOne : Nat := Nat.pow 10 1074

/-- The digits of a fraction of `10 ^ -1074` grains: 1074 of them, less the zeros at the end. -/
def fractionDigits (grains : Nat) : List Char :=
  let digits := Nat.toDigits 10 grains
  let padded := List.replicate (1074 - digits.length) '0' ++ digits
  (padded.reverse.dropWhile (· == '0')).reverse

/-- A number of grains, written out. -/
def positional (grains : Nat) : List Char :=
  let whole := Nat.toDigits 10 (grains / grainsPerOne)
  if grains % grainsPerOne = 0 then whole
  else whole ++ '.' :: fractionDigits (grains % grainsPerOne)

end Decimal

namespace Binary64

/-- The text of a number: the fewest digits that read back. -/
def toChars : Binary64 → List Char
  | nan => ['N', 'a', 'N']
  | inf negative => (if negative then ['-'] else []) ++ ['i', 'n', 'f']
  | finite negative rank =>
    (if negative then ['-'] else []) ++ Decimal.positional (Decimal.shortestGrains rank.val)

instance : ToString Binary64 := ⟨fun x => .ofList x.toChars⟩

end Binary64

end Reckoner
