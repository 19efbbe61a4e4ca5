import Reckoner.Binary64.Arithmetic
import Reckoner.FixedPoint

/-! # Sine, cosine and tangent

The argument, an exact fraction, is brought within an eighth of a turn of a quarter turn, and the
series are summed to 2560 places, since a quarter turn may be taken away up to `2 ^ 1024` times. The
places are meant to be enough for the sum to round like the true result. The precision of these
functions is unspecified, so nothing is proved about it.
-/

namespace Reckoner.Binary64

/-- Places of the fixed-point numbers here. -/
abbrev circularBits : Nat := 2560

def quarterTurn : Int := FixedPoint.halfPi circularBits

/-- The sine and the cosine of a magnitude given in units. -/
def sinCos (units : Nat) : Int × Int :=
  let angle : Int := .ofNat (units <<< (circularBits - 1074))
  let turns := (2 * angle + quarterTurn) / (2 * quarterTurn)
  let rest := angle - turns * quarterTurn
  let s := FixedPoint.sin circularBits rest
  let c := FixedPoint.cos circularBits rest
  match (turns % 4).toNat with
  | 0 => (s, c)
  | 1 => (c, -s)
  | 2 => (-s, -c)
  | _ => (-c, s)

/-- The value nearest to the quotient of two fixed-point numbers. -/
def ofQuotient (n d : Int) : Binary64 :=
  ofRatio (decide (n < 0) ^^ decide (d < 0)) (n.natAbs * unitsPerOne) d.natAbs

def sin : Binary64 → Binary64
  | nan | inf _ => nan
  | finite negative rank =>
    if rank.val = 0 then zero negative
    else
      let y := ofQuotient (sinCos (unitsAt rank.val)).1 (FixedPoint.one circularBits)
      if negative then -y else y

def cos : Binary64 → Binary64
  | nan | inf _ => nan
  | finite _ rank => ofQuotient (sinCos (unitsAt rank.val)).2 (FixedPoint.one circularBits)

def tan : Binary64 → Binary64
  | nan | inf _ => nan
  | finite negative rank =>
    if rank.val = 0 then zero negative
    else
      let (s, c) := sinCos (unitsAt rank.val)
      let y := ofQuotient s c
      if negative then -y else y

end Reckoner.Binary64
