/-! # Classes of characters -/

namespace Reckoner

/-- A class of characters as a rising list of boundaries: code points from the first boundary up to
the second, not included, belong to it, then those from the third up to the fourth, and so on. -/
structure CharClass where
  bounds : List Nat
deriving DecidableEq, Repr

namespace CharClass

/-- Walks past the boundaries up to `n`, each of which changes from outside to inside or back. -/
def walk (inside : Bool) (n : Nat) : List Nat → Bool
  | [] => inside
  | bound :: rest => if n < bound then inside else walk (!inside) n rest

def contains (k : CharClass) (c : Char) : Bool := walk false c.toNat k.bounds

end CharClass

end Reckoner
