/-! # Binary64 values

A finite value is a sign and a *rank*: the place of its magnitude among all finite magnitudes, in
increasing order. Rank 0 is zero, rank 1 the least positive value `2 ^ -1074`, and the rank is also
what the low 63 bits of the encoding spell. All exact arithmetic counts in *units* of `2 ^ -1074`,
of which every finite value holds a whole number.
-/

namespace Reckoner

/-- How many finite magnitudes there are from one power of two up to the next. -/
abbrev Binary64.binade : Nat := 0x10000000000000

/-- How many finite magnitudes there are: 2047 times a binade. -/
abbrev Binary64.rankCount : Nat := 0x7ff0000000000000

/-- A binary64 value, with all NaNs taken as one. -/
inductive Binary64
  | nan
  | inf (negative : Bool)
  | finite (negative : Bool) (rank : Fin Binary64.rankCount)
deriving DecidableEq, Repr

namespace Binary64

/-- How many units make one. -/
abbrev unitsPerOne : Nat := 1 <<< 1074

/-- The magnitude of rank `r` in units: the rank itself in the first two binades, and steps twice
as wide from each further binade on. At `rankCount` this is the first power of two past the finite
values. -/
def unitsAt (r : Nat) : Nat :=
  if r < binade then r else (binade + r % binade) <<< (r / binade - 1)

def zero (negative : Bool) : Binary64 := .finite negative ⟨0, by decide⟩

def one : Binary64 := .finite false ⟨0x3ff0000000000000, by decide⟩

def half : Binary64 := .finite false ⟨0x3fe0000000000000, by decide⟩

/-- The sign bit. NaN counts as positive. -/
def isSigned : Binary64 → Bool
  | nan => false
  | inf negative => negative
  | finite negative _ => negative

def isZero : Binary64 → Bool
  | finite _ rank => rank.val = 0
  | _ => false

/-- A count of units with a sign. -/
def signedUnits (negative : Bool) (units : Nat) : Int :=
  if negative then -units else units

/-- The place of a number on the line, in units; an infinity lies at the first magnitude past the
finite ones. NaN has none. -/
def position? : Binary64 → Option Int
  | nan => none
  | inf negative => some (signedUnits negative (unitsAt rankCount))
  | finite negative rank => some (signedUnits negative (unitsAt rank.val))

/-- Strictly less. Zeros of both signs are equal, and NaN compares with nothing. -/
def lt (x y : Binary64) : Bool :=
  match x.position?, y.position? with
  | some a, some b => a < b
  | _, _ => false

/-- The weight of the sign in the encoding. -/
abbrev signWeight : Nat := 0x8000000000000000

/-- The 64 bits of the value: the sign, then the rank. -/
def toBits : Binary64 → UInt64
  | nan => 0x7ff8000000000000
  | inf negative => .ofNat (signWeight * negative.toNat + rankCount)
  | finite negative rank => .ofNat (signWeight * negative.toNat + rank.val)

/-- The value of rank `r` with the sign given; past the finite ranks, an infinity. -/
def ofRank (negative : Bool) (r : Nat) : Binary64 :=
  if h : r < rankCount then .finite negative ⟨r, h⟩ else .inf negative

/-- The value that 64 bits spell. -/
def ofBits (bits : UInt64) : Binary64 :=
  if rankCount < bits.toNat % signWeight then .nan
  else ofRank (decide (signWeight ≤ bits.toNat)) (bits.toNat % signWeight)

@[simp] theorem ofRank_val (negative : Bool) (rank : Fin rankCount) :
    ofRank negative rank.val = .finite negative rank := by
  simp [ofRank]

theorem ofBits_toBits (x : Binary64) : ofBits x.toBits = x := by
  rcases x with _ | negative | ⟨negative, rank⟩
  · decide
  · cases negative <;> decide
  · have h : rank.val < 0x7ff0000000000000 := rank.isLt
    have bits : (toBits (.finite negative rank)).toNat = signWeight * negative.toNat + rank.val :=
      UInt64.toNat_ofNat_of_lt' (by cases negative <;> simp [UInt64.size, signWeight] <;> omega)
    have low : (signWeight * negative.toNat + rank.val) % signWeight = rank.val := by
      rw [Nat.mul_add_mod, Nat.mod_eq_of_lt (Nat.lt_trans h (by decide))]
    have high : decide (signWeight ≤ signWeight * negative.toNat + rank.val) = negative := by
      cases negative <;> simp [signWeight]
      omega
    rw [ofBits, bits, low, high, if_neg (Nat.not_lt.2 (Nat.le_of_lt h)), ofRank_val]

end Binary64

end Reckoner
