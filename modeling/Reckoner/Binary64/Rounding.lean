import Reckoner.Binary64.Basic

/-! # Rounding to the nearest value, ties to even -/

namespace Reckoner

/-- The whole number nearest to `n / d`; a tie goes to the even neighbour. -/
def roundDiv (n d : Nat) : Nat :=
  if 2 * (n % d) < d then n / d
  else if d < 2 * (n % d) then n / d + 1
  else n / d + n / d % 2

namespace Binary64

/-- The rank nearest to `n / d` units, as if ranks went on for ever. The quotient is cut to the 53
leading bits of its whole part; rounding up to the next power of two carries into the next rank by
itself, because ranks are consecutive there too. -/
def nearestRank (n d : Nat) : Nat :=
  let shift := (n / d).log2 - 52
  shift * binade + roundDiv n (d <<< shift)

/-- The value nearest to `n / d` units, an infinity past the finite ones. -/
def ofRatio (negative : Bool) (n d : Nat) : Binary64 :=
  ofRank negative (nearestRank n d)

/-- The value nearest to a whole number of units; zero gets the sign that is given. -/
def ofUnits (zeroSign : Bool) (units : Int) : Binary64 :=
  if units = 0 then zero zeroSign else ofRatio (decide (units < 0)) units.natAbs 1

end Binary64

end Reckoner
