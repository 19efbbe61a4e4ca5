import Reckoner.Binary64.FloorDivision
import Reckoner.Proofs.Value

/-!
# The floored quotient

Taking away the remainder, dividing, and taking away one more each round once. Up to `2 ^ 50`
these errors stay below one half together, so the whole number that is nearest to the outcome is
the floor of the quotient, and this is the number that settling finds.
-/

namespace Reckoner.Binary64

variable {a b : Binary64} {x y w : ℚ} {n : Int}

theorem Near.abs_sub_le {p c : ℚ} (h : Near w p) (hp : |p| ≤ c) : |w - p| ≤ c / 2 ^ 53 :=
  h.trans (div_le_div_of_nonneg_right hp (by positivity))

/-! ## The quotient before it is made whole -/

/-- If whole times of a number are taken away so that less than one is left, the floor of the
quotient is how many they are, or one less where what is left lies on the other side of zero. -/
theorem floor_div_eq (hy : y ≠ 0) (hlt : |x - n * y| < |y|) :
    ⌊x / y⌋ = if (x - n * y) / y < 0 then n - 1 else n := by
  have hquotient : x / y = n + (x - n * y) / y := by
    field_simp
    ring
  obtain ⟨hlow, hhigh⟩ : -1 < (x - n * y) / y ∧ (x - n * y) / y < 1 := by
    rw [← abs_lt, abs_div]
    exact (div_lt_one (abs_pos.2 hy)).2 hlt
  rw [Int.floor_eq_iff, hquotient]
  split
  all_goals
    push_cast
    constructor <;> linarith

theorem sides_ne_iff {r : ℚ} (hy : y ≠ 0) (hr : r ≠ 0) :
    (decide (y < 0) != decide (r < 0)) = true ↔ r / y < 0 := by
  rw [div_neg_iff, bne_iff_ne, ne_eq, decide_eq_decide]
  grind

/-- What becomes of the remainder, and of the quotient with it: the remainder is zero, on the other
side of zero than the divisor, or on the same side. -/
theorem flooredParts_cases (ha : a.toRat? = some x) (hb : b.toRat? = some y) (hy : y ≠ 0) :
    ∃ n : Int, (a.rem b).toRat? = some (x - n * y) ∧ |x - n * y| < |y| ∧ |n * y| ≤ |x| ∧
      ((x - n * y = 0 ∧ ⌊x / y⌋ = n ∧
          flooredParts a b = ((a - a.rem b) / b, zero b.isSigned)) ∨
        ((x - n * y) / y < 0 ∧ ⌊x / y⌋ = n - 1 ∧
          flooredParts a b = ((a - a.rem b) / b - one, a.rem b + b)) ∨
        (0 < (x - n * y) / y ∧ ⌊x / y⌋ = n ∧
          flooredParts a b = ((a - a.rem b) / b, a.rem b))) := by
  obtain ⟨n, hrem, hlt, hle⟩ := exists_toRat?_rem ha hb hy
  refine ⟨n, hrem, hlt, hle, ?_⟩
  rw [floor_div_eq hy hlt, flooredParts, isZero_eq hrem, lt_eq hb (toRat?_zero false),
    lt_eq hrem (toRat?_zero false)]
  rcases eq_or_ne (x - n * y) 0 with hzero | hzero
  · exact .inl ⟨hzero, by simp [hzero], if_pos (by simpa using hzero)⟩
  right
  rw [if_neg (show ¬ decide (x - n * y = 0) = true by simpa using hzero)]
  have hsides := sides_ne_iff hy hzero
  rcases lt_or_gt_of_ne (div_ne_zero hzero hy) with hneg | hpos
  · exact .inl ⟨hneg, if_pos hneg, if_pos (hsides.2 hneg)⟩
  · exact .inr ⟨hpos, if_neg hpos.not_gt, if_neg (mt hsides.1 hpos.not_gt)⟩

/-- The exact number of times that the divisor is taken away comes out of the division nearly. -/
theorem exists_toRat?_div_sub_rem (ha : a.toRat? = some x) (hb : b.toRat? = some y) (hy : y ≠ 0)
    (hrem : (a.rem b).toRat? = some (x - n * y)) (hle : |n * y| ≤ |x|)
    (hn : |(n : ℚ)| ≤ 2 ^ 50 + 1) :
    ∃ w, ((a - a.rem b) / b).toRat? = some w ∧ |w - n| ≤ 17 / 64 := by
  obtain ⟨u, hu, hnear⟩ := exists_near_sub ha hrem (by
    rw [sub_sub_cancel]
    exact hle.trans (abs_le_greatest ha))
  rw [sub_sub_cancel] at hnear
  -- dividing exactly would keep the error of the difference, in proportion
  have hquotient : Near (u / y) n := by
    simpa [div_eq_mul_inv, hy] using hnear.mul y⁻¹
  have hfirst := hquotient.abs_sub_le hn
  have hbound : |u / y| ≤ 2 ^ 50 + 2 := by
    have := abs_add_le (u / y - n) n
    rw [sub_add_cancel] at this
    linarith
  have hlow : u = 0 ∨ 1 / 2 ≤ |u / y| := by
    rcases eq_or_ne n 0 with rfl | hne
    · left
      rw [Int.cast_zero, zero_mul] at hnear
      exact hnear.eq_zero
    · right
      have hone : (1 : ℚ) ≤ |(n : ℚ)| := by exact_mod_cast Int.one_le_abs hne
      have hsub := abs_sub_abs_le_abs_sub (n : ℚ) (u / y)
      rw [abs_sub_comm] at hsub
      linarith
  obtain ⟨w, hw, hsecond⟩ := exists_near_div hu hb hy hlow
    (hbound.trans (le_trans (by norm_num) two_pow_le_greatest))
  refine ⟨w, hw, ?_⟩
  have hsum := abs_sub_le w (u / y) n
  have := hsecond.abs_sub_le hbound
  linarith

/-- Before it is made whole, the quotient is off from its floor by less than one half. -/
theorem exists_toRat?_flooredParts (ha : a.toRat? = some x) (hb : b.toRat? = some y) (hy : y ≠ 0)
    (h : |⌊x / y⌋| ≤ 2 ^ 50) :
    ∃ w, (flooredParts a b).1.toRat? = some w ∧ |w - ⌊x / y⌋| ≤ 13 / 32 := by
  obtain ⟨n, hrem, -, hle, hcases⟩ := flooredParts_cases ha hb hy
  have hn : |(n : ℚ)| ≤ 2 ^ 50 + 1 := by
    have : |n| ≤ 2 ^ 50 + 1 := by
      rw [abs_le] at h ⊢
      rcases hcases with ⟨-, hfloor, -⟩ | ⟨-, hfloor, -⟩ | ⟨-, hfloor, -⟩ <;> omega
    exact_mod_cast this
  obtain ⟨w, hw, hnear⟩ := exists_toRat?_div_sub_rem ha hb hy hrem hle hn
  rcases hcases with ⟨-, hfloor, hparts⟩ | ⟨-, hfloor, hparts⟩ | ⟨-, hfloor, hparts⟩
  all_goals rw [hparts, hfloor]
  · exact ⟨w, hw, hnear.trans (by norm_num)⟩
  · -- one more divisor is taken away, and rounding comes in once more
    have hbound : |w - 1| ≤ 2 ^ 50 + 3 := by
      rw [abs_le] at *
      constructor <;> linarith
    obtain ⟨v, hv, hsub⟩ := exists_near_sub hw toRat?_one
      (hbound.trans (le_trans (by norm_num) two_pow_le_greatest))
    refine ⟨v, hv, ?_⟩
    have hsum := abs_sub_le v (w - 1) ((n - 1 : Int) : ℚ)
    rw [Int.cast_sub, Int.cast_one, sub_sub_sub_cancel_right] at *
    have := hsub.abs_sub_le hbound
    linarith
  · exact ⟨w, hw, hnear.trans (by norm_num)⟩

/-! ## Settling -/

/-- Settling finds the whole number that the quotient is off from by less than one half. -/
theorem toRat?_settle {q : Binary64} (hq : q.toRat? = some w) (hnear : |w - n| ≤ 13 / 32)
    (hn : |n| ≤ 2 ^ 50) : (settle q a b).toRat? = some (n : ℚ) := by
  obtain ⟨hlow, hhigh⟩ := abs_le.1 hnear
  rw [settle, isZero_eq hq]
  split
  · next hzero =>
    rw [decide_eq_true_eq] at hzero
    have hsmall : |(n : ℚ)| < 1 := by
      rw [abs_lt]
      constructor <;> linarith
    have hn : n = 0 := Int.abs_lt_one_iff.1 (by exact_mod_cast hsmall)
    rw [toRat?_zero, hn, Int.cast_zero]
  have hpart := Int.fract_nonneg w
  have hpart' := (Int.fract_lt_one w).le
  obtain ⟨g, hg, herror⟩ := exists_near_sub hq (toRat?_floor hq) (by
    rw [Int.self_sub_floor, abs_of_nonneg hpart]
    exact hpart'.trans (le_trans (by norm_num) two_pow_le_greatest))
  rw [Int.self_sub_floor] at herror
  obtain ⟨hdown, hup⟩ := abs_le.1 (herror.abs_sub_le ((abs_of_nonneg hpart).trans_le hpart'))
  rw [Int.fract] at hdown hup
  rw [lt_eq toRat?_half hg]
  -- just below the whole number, the fraction is near one, and above it near zero
  rcases le_or_gt (n : ℚ) w with hle | hgt
  · have hfloor : ⌊w⌋ = n := Int.floor_eq_iff.2 ⟨hle, by linarith⟩
    rw [hfloor] at hup
    rw [if_neg (by rw [decide_eq_true_eq]; linarith), toRat?_floor hq, hfloor]
  · have hfloor : ⌊w⌋ = n - 1 := by
      rw [Int.floor_eq_iff]
      push_cast
      constructor <;> linarith
    rw [hfloor] at hdown
    push_cast at hdown
    have hone : one.toRat? = some ((1 : Int) : ℚ) := by rw [toRat?_one, Int.cast_one]
    rw [if_pos (by rw [decide_eq_true_eq]; linarith), toRat?_add_intCast (toRat?_floor hq) hone]
    · rw [hfloor, sub_add_cancel]
    · rw [hfloor, sub_add_cancel]
      exact hn.trans (by norm_num)

theorem floorDivMod_eq (hb : b.toRat? = some y) (hy : y ≠ 0) :
    floorDivMod a b = (settle (flooredParts a b).1 a b, (flooredParts a b).2) := by
  have hzero : b.isZero = false := by simpa [hy] using isZero_eq hb
  rw [floorDivMod, if_neg (by simp [hzero])]

theorem toRat?_floorDiv (ha : a.toRat? = some x) (hb : b.toRat? = some y) (hy : y ≠ 0)
    (h : |⌊x / y⌋| ≤ 2 ^ 50) : (floorDiv a b).toRat? = some (⌊x / y⌋ : ℚ) := by
  obtain ⟨w, hw, hnear⟩ := exists_toRat?_flooredParts ha hb hy h
  rw [floorDiv, floorDivMod_eq hb hy]
  exact toRat?_settle hw hnear h

/-! ## Whole results -/

/-- NaN, an infinity or a whole number. -/
inductive IsIntegral : Binary64 → Prop
  | nan : IsIntegral nan
  | inf (s : Bool) : IsIntegral (inf s)
  | whole {x : Binary64} (z : Int) (h : x.toRat? = some (z : ℚ)) : IsIntegral x

theorem isIntegral_floor (q : Binary64) : IsIntegral q.floor := by
  cases hq : q.toRat? with
  | some w => exact .whole _ (toRat?_floor hq)
  | none =>
    cases q with
    | nan => exact .nan
    | inf s => exact .inf s
    | finite s rank => cases hq

/-- Whole numbers are rounded to whole numbers. -/
theorem isIntegral_ofRatio_mul (s : Bool) (k : Nat) :
    IsIntegral (ofRatio s (k * unitsPerOne) 1) := by
  rw [ofRatio, ofRank]
  split
  · next hrank =>
    have hdvd : unitsPerOne ∣ unitsAt (nearestRank (k * unitsPerOne) 1) := by
      rw [unitsPerOne_eq]
      exact two_pow_dvd_unitsAt_nearestRank (Nat.dvd_mul_left _ k)
    obtain ⟨j, hj⟩ := exists_eq_mul_left_of_dvd hdvd
    refine .whole (signedUnits s j) ?_
    rw [toRat?, hj, signedUnits_mul_unitsPerOne]
  · exact .inf s

theorem isIntegral_ofUnits_mul (s : Bool) (z : Int) : IsIntegral (ofUnits s (z * unitsPerOne)) := by
  rw [ofUnits]
  split
  · exact .whole 0 (by simpa using toRat?_zero s)
  · rw [Int.natAbs_mul, Int.natAbs_natCast]
    exact isIntegral_ofRatio_mul _ _

theorem IsIntegral.add_one {q : Binary64} (h : IsIntegral q) : IsIntegral (q + one) := by
  cases h with
  | nan => exact .nan
  | inf s => exact .inf s
  | whole z hz =>
    have hone : one.toRat? = some ((1 : Int) : ℚ) := by rw [toRat?_one, Int.cast_one]
    obtain ⟨s, hadd⟩ := exists_add_eq_ofUnits hz hone
    rw [hadd]
    exact isIntegral_ofUnits_mul s _

theorem isIntegral_settle (q a b : Binary64) : IsIntegral (settle q a b) := by
  rw [settle]
  split
  · exact .whole 0 (by simpa using toRat?_zero _)
  · split
    · exact (isIntegral_floor q).add_one
    · exact isIntegral_floor q

theorem isIntegral_floorDiv (a b : Binary64) : IsIntegral (floorDiv a b) := by
  rw [floorDiv, floorDivMod]
  split
  · exact isIntegral_floor _
  · exact isIntegral_settle _ a b

/-- **The floored quotient.** Where the floor of the exact quotient of two finite values is `2 ^
50` at most, it is what the division gives, in spite of its roundings. Whatever the values are,
the quotient is NaN, an infinity or a whole number. -/
theorem floorDiv_eq_floor :
    (∀ (a b : Binary64) (x y : ℚ), a.toRat? = some x → b.toRat? = some y → y ≠ 0 →
      |⌊x / y⌋| ≤ 2 ^ 50 → (floorDiv a b).toRat? = some (⌊x / y⌋ : ℚ)) ∧
    ∀ a b : Binary64, (floorDivMod a b).1 = nan ∨ (∃ s, (floorDivMod a b).1 = inf s) ∨
      ∃ z : Int, (floorDivMod a b).1.toRat? = some (z : ℚ) := by
  refine ⟨fun a b x y => toRat?_floorDiv, fun a b => ?_⟩
  have h := isIntegral_floorDiv a b
  rw [floorDiv] at h
  generalize (floorDivMod a b).1 = q at h
  cases h with
  | nan => exact .inl rfl
  | inf s => exact .inr (.inl ⟨s, rfl⟩)
  | whole z hz => exact .inr (.inr ⟨z, hz⟩)

/-- The tenth of binary64 lies above the tenth, so it fits into one nine times only. -/
example : floorDiv one (ofBits 0x3fb999999999999a) = ofBits 0x4022000000000000 := by decide +kernel

end Reckoner.Binary64
