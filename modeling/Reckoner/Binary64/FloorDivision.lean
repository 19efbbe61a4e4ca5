import Reckoner.Binary64.Arithmetic

/-! # Floored quotient and remainder

Both parts come from the exact remainder, not from the rounded quotient: `1 / 0.1` rounds to `10`,
while `0.1` fits into `1` only nine whole times.
-/

namespace Reckoner.Binary64

/-- The remainder with the divisor's sign, and the quotient before it is made whole. Where the
exact remainder lies on the other side of zero, one more divisor is taken away. -/
def flooredParts (a b : Binary64) : Binary64 × Binary64 :=
  let r := a.rem b
  let q := (a - r) / b
  if r.isZero then (q, zero b.isSigned)
  else if b.lt (zero false) != r.lt (zero false) then (q - one, r + b)
  else (q, r)

/-- A quotient that rounding may have moved off a whole number, put back on the nearest one; a
zero takes the sign of `a / b`. -/
def settle (q a b : Binary64) : Binary64 :=
  if q.isZero then zero (a / b).isSigned
  else if half.lt (q - q.floor) then q.floor + one
  else q.floor

/-- The quotient rounded down, and the remainder that goes with it. -/
def floorDivMod (a b : Binary64) : Binary64 × Binary64 :=
  if b.isZero then ((a / b).floor, a.rem b)
  else (settle (flooredParts a b).1 a b, (flooredParts a b).2)

def floorDiv (a b : Binary64) : Binary64 := (floorDivMod a b).1

def floorMod (a b : Binary64) : Binary64 := (floorDivMod a b).2

end Reckoner.Binary64
