import Reckoner.Binary64.Rounding

/-! # The exact operations, each rounded once -/

namespace Reckoner.Binary64

def neg : Binary64 → Binary64
  | nan => nan
  | inf negative => inf (!negative)
  | finite negative rank => finite (!negative) rank

/-- The sum. Values that cancel give a positive zero. -/
def add : Binary64 → Binary64 → Binary64
  | nan, _ | _, nan => nan
  | inf s, inf t => if s = t then inf s else nan
  | inf s, finite _ _ => inf s
  | finite _ _, inf t => inf t
  | finite s a, finite t b =>
    ofUnits (s && t) (signedUnits s (unitsAt a.val) + signedUnits t (unitsAt b.val))

def sub (x y : Binary64) : Binary64 := add x y.neg

def mul : Binary64 → Binary64 → Binary64
  | nan, _ | _, nan => nan
  | inf s, inf t => inf (s ^^ t)
  | inf s, finite t b => if b.val = 0 then nan else inf (s ^^ t)
  | finite s a, inf t => if a.val = 0 then nan else inf (s ^^ t)
  | finite s a, finite t b => ofRatio (s ^^ t) (unitsAt a.val * unitsAt b.val) unitsPerOne

def div : Binary64 → Binary64 → Binary64
  | nan, _ | _, nan => nan
  | inf _, inf _ => nan
  | inf s, finite t _ => inf (s ^^ t)
  | finite s _, inf t => zero (s ^^ t)
  | finite s a, finite t b =>
    if b.val = 0 then if a.val = 0 then nan else inf (s ^^ t)
    else ofRatio (s ^^ t) (unitsAt a.val * unitsPerOne) (unitsAt b.val)

/-- What is left of `x` after taking away `y` as many whole times as fit, towards zero. It is
exact and has the sign of `x`. -/
def rem : Binary64 → Binary64 → Binary64
  | nan, _ | _, nan | inf _, _ => nan
  | finite s a, inf _ => finite s a
  | finite s a, finite _ b =>
    if b.val = 0 then nan else ofRatio s (unitsAt a.val % unitsAt b.val) 1

/-- The greatest whole number that is not above the value; a zero keeps its sign. -/
def floor : Binary64 → Binary64
  | nan => nan
  | inf negative => inf negative
  | finite negative rank =>
    let units := unitsAt rank.val
    if units % unitsPerOne = 0 then finite negative rank
    else ofRatio negative ((units / unitsPerOne + negative.toNat) * unitsPerOne) 1

instance : Neg Binary64 := ⟨neg⟩
instance : Add Binary64 := ⟨add⟩
instance : Sub Binary64 := ⟨sub⟩
instance : Mul Binary64 := ⟨mul⟩
instance : Div Binary64 := ⟨div⟩

end Reckoner.Binary64
