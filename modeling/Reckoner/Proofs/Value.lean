import Mathlib.Algebra.Order.Floor.Ring
import Mathlib.Data.Rat.Floor
import Mathlib.Tactic.LinearCombination
import Reckoner.Binary64.Arithmetic
import Reckoner.Proofs.Rounding

/-!
# Finite values as rational numbers

A finite value stands for a rational number. An operation gives what the same operation gives on
these numbers, off by rounding at most where the result is not too small, and exactly where the
result is a few steps of some width. Remainders and whole parts are always exact.
-/

namespace Reckoner.Binary64

variable {x y : Binary64} {p q : ℚ} {n d : Nat}

/-- The size of a unit. -/
def unitSize : ℚ := 1 / unitsPerOne

/-- The number that a finite value stands for. -/
def toRat? : Binary64 → Option ℚ
  | finite negative rank => some (signedUnits negative (unitsAt rank.val) * unitSize)
  | _ => none

/-- How many units the greatest finite value has. -/
abbrev greatestUnits : Nat := unitsAt (rankCount - 1)

/-- The greatest finite number. -/
def greatest : ℚ := greatestUnits * unitSize

/-- The number `w` is off from `p` by rounding at most. -/
def Near (w p : ℚ) : Prop := |w - p| ≤ |p| / 2 ^ 53

/-! ## Signs and units -/

theorem unitSize_pos : 0 < unitSize :=
  one_div_pos.2 (Nat.cast_pos.2 unitsPerOne_pos)

theorem unitsPerOne_mul_unitSize : (unitsPerOne : ℚ) * unitSize = 1 :=
  mul_one_div_cancel (Nat.cast_ne_zero.2 unitsPerOne_pos.ne')

theorem two_mul_binade_le_unitsPerOne : 2 * binade ≤ unitsPerOne := by
  rw [unitsPerOne_eq]
  exact Nat.pow_le_pow_right Nat.two_pos (show 53 ≤ 1074 by decide)

theorem signedUnits_mul (s t : Bool) (n d : Nat) :
    signedUnits s n * signedUnits t d = signedUnits (s ^^ t) (n * d) := by
  cases s <;> cases t <;> simp [signedUnits]

theorem signedUnits_eq_mul (s : Bool) (n : Nat) : (signedUnits s n : ℚ) = n * signedUnits s 1 := by
  cases s <;> simp [signedUnits]

theorem signedUnits_add (s : Bool) (n d : Nat) :
    signedUnits s (n + d) = signedUnits s n + signedUnits s d := by
  cases s <;> simp [signedUnits, add_comm]

theorem signedUnits_not (s : Bool) (n : Nat) : signedUnits (!s) n = -signedUnits s n := by
  cases s <;> simp [signedUnits]

@[simp] theorem natAbs_signedUnits (s : Bool) (n : Nat) : (signedUnits s n).natAbs = n := by
  cases s <;> simp [signedUnits]

theorem signedUnits_natAbs (z : Int) : signedUnits (decide (z < 0)) z.natAbs = z := by
  simp only [signedUnits, decide_eq_true_eq]
  split <;> omega

theorem abs_signedUnits_mul_unitSize (s : Bool) (n : Nat) :
    |signedUnits s n * unitSize| = n * unitSize := by
  rw [abs_mul, abs_of_pos unitSize_pos, ← Int.cast_abs, Int.abs_eq_natAbs, natAbs_signedUnits,
    Int.cast_natCast]

/-- A whole number, in units. -/
theorem signedUnits_mul_unitsPerOne (s : Bool) (n : Nat) :
    signedUnits s (n * unitsPerOne) * unitSize = signedUnits s n := by
  have hmul : signedUnits s (n * unitsPerOne) = signedUnits s n * unitsPerOne := by
    cases s <;> simp [signedUnits]
  rw [hmul, Int.cast_mul, Int.cast_natCast, mul_assoc, unitsPerOne_mul_unitSize, mul_one]

/-- A quotient, in units. -/
theorem signedUnits_div (s t : Bool) (n d : Nat) :
    signedUnits s n * unitSize / (signedUnits t d * unitSize) =
      signedUnits (s ^^ t) (n * unitsPerOne) / d * unitSize := by
  rw [mul_div_mul_right _ _ unitSize_pos.ne', div_mul_eq_mul_div, signedUnits_mul_unitsPerOne]
  cases s <;> cases t <;> simp [signedUnits, neg_div, div_neg]

/-- A number of units that is not whole, made whole. -/
theorem floor_signedUnits (s : Bool) (h : n % unitsPerOne ≠ 0) :
    ⌊signedUnits s n * unitSize⌋ = signedUnits s (n / unitsPerOne + s.toNat) := by
  have hpos : 0 < ((n % unitsPerOne : Nat) : ℚ) * unitSize :=
    mul_pos (Nat.cast_pos.2 (Nat.pos_of_ne_zero h)) unitSize_pos
  have hlt : ((n % unitsPerOne : Nat) : ℚ) * unitSize < 1 := by
    rw [← unitsPerOne_mul_unitSize, mul_lt_mul_iff_of_pos_right unitSize_pos, Nat.cast_lt]
    exact Nat.mod_lt _ unitsPerOne_pos
  have hsplit : (signedUnits s n : ℚ) * unitSize =
      signedUnits s (n / unitsPerOne) + signedUnits s (n % unitsPerOne) * unitSize := by
    rw [← signedUnits_mul_unitsPerOne s (n / unitsPerOne), ← add_mul, ← Int.cast_add,
      ← signedUnits_add, Nat.div_add_mod']
  rw [hsplit, Int.floor_eq_iff]
  generalize n / unitsPerOne = k
  generalize n % unitsPerOne = m at hpos hlt
  cases s
  all_goals
    simp [signedUnits]
    constructor <;> linarith

/-! ## Numbers of values -/

theorem toRat?_eq_some_iff : x.toRat? = some p ↔
    ∃ s rank, x = finite s rank ∧ p = signedUnits s (unitsAt rank.val) * unitSize := by
  cases x <;> simp [toRat?, eq_comm]

theorem unitsAt_le_greatestUnits (rank : Fin rankCount) : unitsAt rank.val ≤ greatestUnits :=
  unitsAt_strictMono.monotone (Nat.le_sub_one_of_lt rank.isLt)

theorem mul_unitSize_le_iff : n * unitSize ≤ d * unitSize ↔ n ≤ d := by
  rw [mul_le_mul_iff_of_pos_right unitSize_pos, Nat.cast_le]

theorem abs_le_greatest (h : x.toRat? = some p) : |p| ≤ greatest := by
  obtain ⟨s, rank, rfl, rfl⟩ := toRat?_eq_some_iff.1 h
  rw [abs_signedUnits_mul_unitSize, greatest, mul_unitSize_le_iff]
  exact unitsAt_le_greatestUnits rank

theorem mul_unitsPerOne_le (h : n ≤ 2 * binade) : n * unitsPerOne ≤ greatestUnits := by
  have hrank : unitsAt (1074 * binade + 2 * binade) = 2 * binade * 2 ^ 1074 :=
    unitsAt_mul_add le_rfl (.inr (by omega))
  calc
    n * unitsPerOne ≤ 2 * binade * 2 ^ 1074 := by
      rw [unitsPerOne_eq]
      exact Nat.mul_le_mul_right _ h
    _ = unitsAt (1074 * binade + 2 * binade) := hrank.symm
    _ ≤ greatestUnits := unitsAt_strictMono.monotone (by decide)

theorem two_pow_le_greatest : (2 : ℚ) ^ 53 ≤ greatest := by
  have hle := mul_unitSize_le_iff.2 (mul_unitsPerOne_le le_rfl)
  rw [Nat.cast_mul, mul_assoc, unitsPerOne_mul_unitSize, mul_one] at hle
  exact le_trans (by norm_num) hle

theorem mul_unitsPerOne_le_of_div_le (hd : 0 < d) (h : (n : ℚ) / d ≤ greatest) :
    n * unitsPerOne ≤ greatestUnits * d := by
  rw [greatest, div_le_iff₀ (Nat.cast_pos.2 hd)] at h
  have hmul := mul_le_mul_of_nonneg_right h (Nat.cast_pos.2 unitsPerOne_pos).le
  have hunits : (greatestUnits : ℚ) * unitSize * d * unitsPerOne = (greatestUnits * d : Nat) := by
    rw [Nat.cast_mul]
    linear_combination (greatestUnits : ℚ) * d * unitsPerOne_mul_unitSize
  rwa [hunits, ← Nat.cast_mul, Nat.cast_le] at hmul

theorem toRat?_zero (s : Bool) : (zero s).toRat? = some 0 := by
  cases s <;> simp [zero, toRat?, signedUnits]

theorem toRat?_one : one.toRat? = some 1 := by
  have hunits : unitsAt 0x3ff0000000000000 = 1 * unitsPerOne := by decide +kernel
  rw [one, toRat?, hunits, signedUnits_mul_unitsPerOne]
  rfl

theorem toRat?_half : half.toRat? = some (1 / 2) := by
  have hunits : unitsAt 0x3fe0000000000000 + unitsAt 0x3fe0000000000000 = 1 * unitsPerOne := by
    decide +kernel
  have hsum := signedUnits_mul_unitsPerOne false 1
  rw [← hunits, signedUnits_add, Int.cast_add, add_mul] at hsum
  rw [half, toRat?]
  generalize (signedUnits false (unitsAt 0x3fe0000000000000) : ℚ) * unitSize = p at hsum ⊢
  rw [Option.some_inj, eq_div_iff two_ne_zero, mul_two, hsum]
  rfl

theorem isZero_eq (h : x.toRat? = some p) : x.isZero = decide (p = 0) := by
  obtain ⟨s, rank, rfl, rfl⟩ := toRat?_eq_some_iff.1 h
  have hzero : unitsAt rank.val = 0 ↔ rank.val = 0 := by
    rw [← unitsAt_strictMono.injective.eq_iff (a := rank.val), unitsAt_zero]
  rw [isZero, decide_eq_decide, mul_eq_zero_iff_right unitSize_pos.ne', Int.cast_eq_zero,
    ← Int.natAbs_eq_zero, natAbs_signedUnits, hzero]

theorem lt_eq (hx : x.toRat? = some p) (hy : y.toRat? = some q) : x.lt y = decide (p < q) := by
  obtain ⟨s, a, rfl, rfl⟩ := toRat?_eq_some_iff.1 hx
  obtain ⟨t, b, rfl, rfl⟩ := toRat?_eq_some_iff.1 hy
  simp only [lt, position?, decide_eq_decide]
  rw [mul_lt_mul_iff_of_pos_right unitSize_pos, Int.cast_lt]

theorem toRat?_neg (h : x.toRat? = some p) : x.neg.toRat? = some (-p) := by
  obtain ⟨s, rank, rfl, rfl⟩ := toRat?_eq_some_iff.1 h
  rw [neg, toRat?, signedUnits_not, Int.cast_neg, neg_mul]

/-! ## Rounded results -/

variable {w : ℚ}

theorem Near.eq_zero (h : Near w 0) : w = 0 := by
  simpa [Near] using h

theorem Near.mul (h : Near w p) (c : ℚ) : Near (w * c) (p * c) := by
  rw [Near, ← sub_mul, abs_mul, abs_mul, mul_div_right_comm]
  exact mul_le_mul_of_nonneg_right h (abs_nonneg c)

/-- The number of a fraction of units that is rounded to a finite value. -/
theorem toRat?_ofRatio (hd : 0 < d) (s : Bool) (h : n ≤ greatestUnits * d) :
    (ofRatio s n d).toRat? = some (signedUnits s (unitsAt (nearestRank n d)) * unitSize) := by
  have hrank : nearestRank n d < rankCount :=
    (nearestRank_le hd h).trans_lt (by decide)
  rw [ofRatio, ofRank, dif_pos hrank, toRat?]

/-- A fraction of units within the finite range is off by rounding at most, if it is a whole number
of units or has at least `2 ^ 52` of them. -/
theorem exists_near_ofRatio (hd : 0 < d) (s : Bool) (hlow : n = 0 ∨ d = 1 ∨ binade * d ≤ n)
    (hhigh : n ≤ greatestUnits * d) :
    ∃ w, (ofRatio s n d).toRat? = some w ∧ Near w (signedUnits s n / d * unitSize) := by
  refine ⟨_, toRat?_ofRatio hd s hhigh, ?_⟩
  have hnear : |(unitsAt (nearestRank n d) : ℚ) - n / d| ≤ n / d / 2 ^ 53 := by
    rcases hlow with rfl | rfl | hlow
    · rw [Nat.le_zero.1 (nearestRank_le hd (Nat.zero_le _))]
      simp
    · rcases Nat.lt_or_ge n binade with hlt | hge
      · rw [unitsAt_nearestRank_of_dvd (Nat.one_dvd n) (by rw [Nat.pow_zero]; omega)]
        rw [Nat.cast_one, div_one, sub_self, abs_zero]
        positivity
      · exact abs_unitsAt_nearestRank_sub_le hd (by omega)
    · exact abs_unitsAt_nearestRank_sub_le hd hlow
  have hfraction : Near (unitsAt (nearestRank n d)) (n / d) := by
    rwa [Near, abs_of_nonneg (show (0 : ℚ) ≤ n / d by positivity)]
  have hscaled := hfraction.mul (signedUnits s 1 * unitSize)
  rw [← mul_assoc, ← mul_assoc, div_mul_eq_mul_div] at hscaled
  rwa [signedUnits_eq_mul s n, signedUnits_eq_mul s (unitsAt _)]

theorem exists_near_ofUnits (s : Bool) {z : Int} (h : |z * unitSize| ≤ greatest) :
    ∃ w, (ofUnits s z).toRat? = some w ∧ Near w (z * unitSize) := by
  rw [← signedUnits_natAbs z, abs_signedUnits_mul_unitSize, greatest, mul_unitSize_le_iff] at h
  rw [ofUnits]
  split
  · next hz =>
    refine ⟨0, toRat?_zero s, ?_⟩
    simp [Near, hz]
  · obtain ⟨w, hw, hnear⟩ := exists_near_ofRatio Nat.one_pos (decide (z < 0)) (.inr (.inl rfl))
      (show z.natAbs ≤ greatestUnits * 1 by rwa [Nat.mul_one])
    rw [signedUnits_natAbs, Nat.cast_one, div_one] at hnear
    exact ⟨w, hw, hnear⟩

theorem exists_near_add (hx : x.toRat? = some p) (hy : y.toRat? = some q)
    (h : |p + q| ≤ greatest) : ∃ w, (x + y).toRat? = some w ∧ Near w (p + q) := by
  obtain ⟨s, a, rfl, rfl⟩ := toRat?_eq_some_iff.1 hx
  obtain ⟨t, b, rfl, rfl⟩ := toRat?_eq_some_iff.1 hy
  rw [← add_mul, ← Int.cast_add] at h ⊢
  exact exists_near_ofUnits _ h

theorem exists_near_sub (hx : x.toRat? = some p) (hy : y.toRat? = some q)
    (h : |p - q| ≤ greatest) : ∃ w, (x - y).toRat? = some w ∧ Near w (p - q) := by
  rw [sub_eq_add_neg] at h ⊢
  exact exists_near_add hx (toRat?_neg hy) h

theorem exists_near_div (hx : x.toRat? = some p) (hy : y.toRat? = some q) (hq : q ≠ 0)
    (hlow : p = 0 ∨ 1 / 2 ≤ |p / q|) (hhigh : |p / q| ≤ greatest) :
    ∃ w, (x / y).toRat? = some w ∧ Near w (p / q) := by
  obtain ⟨s, a, rfl, rfl⟩ := toRat?_eq_some_iff.1 hx
  obtain ⟨t, b, rfl, rfl⟩ := toRat?_eq_some_iff.1 hy
  have hb : b.val ≠ 0 := by simpa [isZero, hq] using isZero_eq hy
  have hpos : 0 < unitsAt b.val := unitsAt_pos (Nat.pos_of_ne_zero hb)
  have hpos' : (0 : ℚ) < unitsAt b.val := Nat.cast_pos.2 hpos
  have hdiv : finite s a / finite t b =
      ofRatio (s ^^ t) (unitsAt a.val * unitsPerOne) (unitsAt b.val) := if_neg hb
  rw [abs_div, abs_signedUnits_mul_unitSize, abs_signedUnits_mul_unitSize,
    mul_div_mul_right _ _ unitSize_pos.ne'] at hlow hhigh
  rw [hdiv, signedUnits_div]
  refine exists_near_ofRatio hpos _ (hlow.imp (fun hp => ?_) fun hhalf => .inr ?_)
    (mul_unitsPerOne_le_of_div_le hpos hhigh)
  · have ha := abs_signedUnits_mul_unitSize s (unitsAt a.val)
    rw [hp, abs_zero, eq_comm, mul_eq_zero_iff_right unitSize_pos.ne', Nat.cast_eq_zero] at ha
    rw [ha, Nat.zero_mul]
  · rw [div_le_div_iff₀ two_pos hpos', one_mul, ← Nat.cast_ofNat, ← Nat.cast_mul,
      Nat.cast_le] at hhalf
    calc
      binade * unitsAt b.val ≤ binade * (unitsAt a.val * 2) := Nat.mul_le_mul_left _ hhalf
      _ = unitsAt a.val * (2 * binade) := by ring
      _ ≤ unitsAt a.val * unitsPerOne := Nat.mul_le_mul_left _ two_mul_binade_le_unitsPerOne

/-! ## Exact results -/

/-- A magnitude is rounded to itself. -/
theorem toRat?_ofRatio_of_eq (s : Bool) (hle : n ≤ greatestUnits)
    (heq : unitsAt (nearestRank n 1) = n) :
    (ofRatio s n 1).toRat? = some (signedUnits s n * unitSize) := by
  rw [toRat?_ofRatio Nat.one_pos s (by rwa [Nat.mul_one]), heq]

/-- Whole numbers of 53 bits are represented. -/
theorem toRat?_ofRatio_mul (s : Bool) (h : n ≤ 2 * binade) :
    (ofRatio s (n * unitsPerOne) 1).toRat? = some (signedUnits s n : ℚ) := by
  rw [toRat?_ofRatio_of_eq s (mul_unitsPerOne_le h), signedUnits_mul_unitsPerOne]
  rw [unitsPerOne_eq]
  exact unitsAt_nearestRank_of_dvd (Nat.dvd_mul_left _ n) (Nat.mul_le_mul_right _ h)

theorem eq_mul_unitsPerOne {i z : Int} (h : (i : ℚ) = z * unitSize) : z = i * unitsPerOne := by
  have hmul : (z : ℚ) = i * unitsPerOne := by
    rw [h, mul_assoc, mul_comm unitSize, unitsPerOne_mul_unitSize, mul_one]
  exact @Int.cast_injective ℚ _ _ _ _ (by rw [hmul, Int.cast_mul, Int.cast_natCast])

theorem toRat?_ofUnits_mul (s : Bool) {z : Int} (h : |z| ≤ 2 ^ 53) :
    (ofUnits s (z * unitsPerOne)).toRat? = some (z : ℚ) := by
  have hU : (0 : Int) < unitsPerOne := Nat.cast_pos.2 unitsPerOne_pos
  have hle : z.natAbs ≤ 2 * binade := by
    rw [Int.abs_eq_natAbs] at h
    exact_mod_cast h
  rw [ofUnits]
  split
  · next hz =>
    rw [toRat?_zero, (mul_eq_zero_iff_right hU.ne').1 hz, Int.cast_zero]
  · have hsign : z * unitsPerOne < 0 ↔ z < 0 :=
      ⟨fun hz => neg_of_mul_neg_left hz hU.le, fun hz => mul_neg_of_neg_of_pos hz hU⟩
    rw [Int.natAbs_mul, Int.natAbs_natCast, toRat?_ofRatio_mul _ hle, decide_eq_decide.2 hsign,
      signedUnits_natAbs]

theorem exists_add_eq_ofUnits {i j : Int} (hx : x.toRat? = some (i : ℚ))
    (hy : y.toRat? = some (j : ℚ)) : ∃ s, x + y = ofUnits s ((i + j) * unitsPerOne) := by
  obtain ⟨s, a, rfl, hi⟩ := toRat?_eq_some_iff.1 hx
  obtain ⟨t, b, rfl, hj⟩ := toRat?_eq_some_iff.1 hy
  refine ⟨s && t, ?_⟩
  rw [add_mul, ← eq_mul_unitsPerOne hi, ← eq_mul_unitsPerOne hj]
  rfl

/-- Sums of whole numbers are exact up to 53 bits. -/
theorem toRat?_add_intCast {i j : Int} (hx : x.toRat? = some (i : ℚ)) (hy : y.toRat? = some (j : ℚ))
    (h : |i + j| ≤ 2 ^ 53) : (x + y).toRat? = some ((i + j : Int) : ℚ) := by
  obtain ⟨s, hadd⟩ := exists_add_eq_ofUnits hx hy
  rw [hadd]
  exact toRat?_ofUnits_mul s h

/-- Where a magnitude is not whole, its steps are narrower than one. -/
theorem unitsAt_lt_of_mod_ne_zero {r : Nat} (h : unitsAt r % unitsPerOne ≠ 0) :
    unitsAt r < 2 * binade * unitsPerOne := by
  obtain ⟨e, k, rfl, hk, he⟩ := exists_eq_mul_add r
  obtain ⟨f, hf⟩ : ∃ f, unitsPerOne = 2 ^ f := ⟨_, unitsPerOne_eq⟩
  rw [unitsAt_mul_add hk.le he, hf] at h ⊢
  generalize 2 * binade = c at hk ⊢
  rcases Nat.lt_or_ge e f with hlt | hge
  · calc
      k * 2 ^ e < c * 2 ^ e := Nat.mul_lt_mul_of_pos_right hk (Nat.two_pow_pos e)
      _ ≤ c * 2 ^ f := Nat.mul_le_mul_left _ (Nat.pow_le_pow_right Nat.two_pos hlt.le)
  · have hdvd : 2 ^ f ∣ k * 2 ^ e := (pow_dvd_pow 2 hge).mul_left k
    exact absurd (Nat.mod_eq_zero_of_dvd hdvd) h

/-- The whole part of a finite value is exact: where the value is not whole, its steps are narrower
than one, so the next whole numbers have 53 bits. -/
theorem toRat?_floor (h : x.toRat? = some p) : x.floor.toRat? = some (⌊p⌋ : ℚ) := by
  obtain ⟨s, rank, rfl, rfl⟩ := toRat?_eq_some_iff.1 h
  have hfloor : (finite s rank).floor = if unitsAt rank.val % unitsPerOne = 0 then finite s rank
      else ofRatio s ((unitsAt rank.val / unitsPerOne + s.toNat) * unitsPerOne) 1 := rfl
  rw [hfloor]
  split
  · next hwhole =>
    have hunits := Nat.div_add_mod' (unitsAt rank.val) unitsPerOne
    rw [hwhole, Nat.add_zero] at hunits
    rw [h, ← hunits, signedUnits_mul_unitsPerOne, Int.floor_intCast]
  · next hwhole =>
    have hlt : unitsAt rank.val / unitsPerOne < 2 * binade :=
      (Nat.div_lt_iff_lt_mul unitsPerOne_pos).2 (unitsAt_lt_of_mod_ne_zero hwhole)
    have hle : unitsAt rank.val / unitsPerOne + s.toNat ≤ 2 * binade := by
      have := s.toNat_le
      omega
    rw [toRat?_ofRatio_mul s hle, floor_signedUnits s hwhole]

/-- The remainder is exact: whole times of the divisor are taken away, no more than the number has,
until less than the divisor is left. -/
theorem exists_toRat?_rem (hx : x.toRat? = some p) (hy : y.toRat? = some q) (hq : q ≠ 0) :
    ∃ n : Int, (x.rem y).toRat? = some (p - n * q) ∧ |p - n * q| < |q| ∧ |n * q| ≤ |p| := by
  obtain ⟨s, a, rfl, rfl⟩ := toRat?_eq_some_iff.1 hx
  obtain ⟨t, b, rfl, rfl⟩ := toRat?_eq_some_iff.1 hy
  have hb : b.val ≠ 0 := by simpa [isZero, hq] using isZero_eq hy
  have hpos : 0 < unitsAt b.val := unitsAt_pos (Nat.pos_of_ne_zero hb)
  have htaken : (signedUnits (s ^^ t) (unitsAt a.val / unitsAt b.val) : ℚ) *
      (signedUnits t (unitsAt b.val) * unitSize) =
        signedUnits s (unitsAt a.val / unitsAt b.val * unitsAt b.val) * unitSize := by
    rw [← mul_assoc, ← Int.cast_mul, signedUnits_mul, Bool.xor_assoc, Bool.xor_self, Bool.xor_false]
  have hleft : (signedUnits s (unitsAt a.val) : ℚ) * unitSize -
      signedUnits s (unitsAt a.val / unitsAt b.val * unitsAt b.val) * unitSize =
        signedUnits s (unitsAt a.val % unitsAt b.val) * unitSize := by
    rw [← sub_mul, ← Int.cast_sub]
    nth_rewrite 1 [← Nat.div_add_mod' (unitsAt a.val) (unitsAt b.val)]
    rw [signedUnits_add, add_sub_cancel_left]
  refine ⟨signedUnits (s ^^ t) (unitsAt a.val / unitsAt b.val), ?_, ?_, ?_⟩
  all_goals rw [htaken]
  · rw [hleft, rem, if_neg hb]
    refine toRat?_ofRatio_of_eq s ?_ (unitsAt_nearestRank_mod a.val (Nat.pos_of_ne_zero hb))
    exact (Nat.mod_le _ _).trans (unitsAt_le_greatestUnits a)
  · rw [hleft, abs_signedUnits_mul_unitSize, abs_signedUnits_mul_unitSize,
      mul_lt_mul_iff_of_pos_right unitSize_pos, Nat.cast_lt]
    exact Nat.mod_lt _ hpos
  · rw [abs_signedUnits_mul_unitSize, abs_signedUnits_mul_unitSize, mul_unitSize_le_iff]
    exact Nat.div_mul_le_self _ _

end Reckoner.Binary64
