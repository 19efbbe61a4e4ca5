import Reckoner.Binary64.Arithmetic
import Reckoner.FixedPoint

/-! # Powers

A power of a positive number is `exp (y · log x)`, kept to 640 places and rounded twice. The first
rounding, to 256 places, is there for a power that is exactly a value or exactly halfway between
two, where the series is off by a hair. The places are meant to be enough for the result to be the
value nearest to the power. The precision of powers is unspecified, so nothing is proved about it.
-/

namespace Reckoner.Binary64

/-- Places of the fixed-point numbers here. -/
abbrev powerBits : Nat := 640

/-- Places that the first rounding keeps. -/
abbrev keptBits : Nat := 256

def logTwo : Int := FixedPoint.log powerBits 2 1

/-- The natural logarithm of a positive number of units. -/
def logUnits (units : Nat) : Int :=
  let e := units.log2
  FixedPoint.log powerBits units (1 <<< e) + ((e : Int) - 1074) * logTwo

/-- The value nearest to `m / 2 ^ keptBits · 2 ^ e`. -/
def ofScaled (negative : Bool) (m : Nat) (e : Int) : Binary64 :=
  let shift := e + 1074 - keptBits
  ofRatio negative (m <<< shift.toNat) (1 <<< (-shift).toNat)

/-- A positive number of units to the power of a signed number of units. -/
def powUnits (negative : Bool) (x : Nat) (y : Int) : Binary64 :=
  let product := y * logUnits x / .ofNat unitsPerOne
  let e := product / logTwo
  if 1100 < e then inf negative
  else if e < -1200 then zero negative
  else
    let fraction := FixedPoint.exp powerBits (product - e * logTwo)
    ofScaled negative (roundDiv fraction.toNat (1 <<< (powerBits - keptBits))) e

/-- Is the value a whole number? Infinities count as even ones. -/
def isWhole : Binary64 → Bool
  | nan => false
  | inf _ => true
  | finite _ rank => unitsAt rank.val % unitsPerOne = 0

def isOdd : Binary64 → Bool
  | finite negative rank =>
    (finite negative rank).isWhole && unitsAt rank.val / unitsPerOne % 2 = 1
  | _ => false

/-- A magnitude that is zero or infinite, to a power other than zero: it grows without bound or
vanishes, and has the sign of the base for an odd power. -/
def powExtreme (x y : Binary64) (grows : Bool) : Binary64 :=
  let negative := x.isSigned && y.isOdd
  if grows then inf negative else zero negative

/-- `x` to the power `y`. The power of zero, and any power of one, is one even where the other
number is NaN. -/
def pow (x y : Binary64) : Binary64 :=
  if y.isZero || x = one then one
  else
    match x, y with
    | nan, _ | _, nan => nan
    | inf s, y => powExtreme (inf s) y (!y.isSigned)
    | finite s a, inf t =>
      if finite false a = one then one
      else powExtreme (finite s a) (inf t) (one.lt (finite false a) != t)
    | finite s a, finite t b =>
      let y := finite t b
      if a.val = 0 then powExtreme (finite s a) y t
      else if s && !y.isWhole then nan
      else powUnits (s && y.isOdd) (unitsAt a.val) (signedUnits t (unitsAt b.val))

end Reckoner.Binary64
