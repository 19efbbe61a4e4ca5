import Reckoner.Proofs.FloorRemainder

/-!
# Division of whole numbers

Up to `2 ^ 53` all whole numbers are values, and all numbers on the way from two of them to their
floored quotient and remainder are such whole numbers.  So no step is rounded.
-/

namespace Reckoner.Binary64

variable {a b x y : Binary64} {p q : ℚ} {i j n : Int}

/-! ## Exact steps -/

/-- Whole numbers of 53 bits are the numbers of values. -/
theorem exists_toRat?_intCast (h : |i| ≤ 2 ^ 53) : ∃ x : Binary64, x.toRat? = some (i : ℚ) :=
  ⟨_, toRat?_ofUnits_mul false h⟩

theorem toRat?_sub_intCast (hx : x.toRat? = some (i : ℚ)) (hy : y.toRat? = some (j : ℚ))
    (h : |i - j| ≤ 2 ^ 53) : (x - y).toRat? = some ((i - j : Int) : ℚ) := by
  have hneg : y.neg.toRat? = some ((-j : Int) : ℚ) := by
    rw [toRat?_neg hy, Int.cast_neg]
  rw [sub_eq_add_neg] at h ⊢
  exact toRat?_add_intCast hx hneg h

theorem toRat?_one_intCast : one.toRat? = some ((1 : Int) : ℚ) := by
  rw [toRat?_one, Int.cast_one]

/-- A whole multiple, as sign and magnitude. -/
theorem eq_of_mul_signedUnits {s t : Bool} {u v : Nat} (hv : 0 < v)
    (h : n * signedUnits t v = signedUnits s u) :
    u = n.natAbs * v ∧ signedUnits (s ^^ t) n.natAbs = n := by
  have hunits : u = n.natAbs * v := by
    have habs := congrArg Int.natAbs h
    rwa [Int.natAbs_mul, natAbs_signedUnits, natAbs_signedUnits, eq_comm] at habs
  have hne : signedUnits t v ≠ 0 := by
    rw [← Int.natAbs_ne_zero, natAbs_signedUnits]
    exact hv.ne'
  refine ⟨hunits, mul_right_cancel₀ hne ?_⟩
  rw [h, signedUnits_mul, Bool.xor_assoc, Bool.xor_self, Bool.xor_false, ← hunits]

/-- A whole quotient of 53 bits is exact. -/
theorem toRat?_div_of_mul (hx : x.toRat? = some (n * q)) (hy : y.toRat? = some q) (hq : q ≠ 0)
    (hn : |n| ≤ 2 ^ 53) : (x / y).toRat? = some (n : ℚ) := by
  obtain ⟨s, a, rfl, hmul⟩ := toRat?_eq_some_iff.1 hx
  obtain ⟨t, b, rfl, rfl⟩ := toRat?_eq_some_iff.1 hy
  have hb : b.val ≠ 0 := by simpa [isZero, hq] using isZero_eq hy
  have hpos : 0 < unitsAt b.val := unitsAt_pos (Nat.pos_of_ne_zero hb)
  rw [← mul_assoc, mul_left_inj' unitSize_pos.ne'] at hmul
  obtain ⟨hunits, hsign⟩ := eq_of_mul_signedUnits hpos (by exact_mod_cast hmul)
  have hle : n.natAbs ≤ 2 * binade := by
    rw [Int.abs_eq_natAbs] at hn
    exact_mod_cast hn
  have hdiv : finite s a / finite t b =
      ofRatio (s ^^ t) (unitsAt a.val * unitsPerOne) (unitsAt b.val) := if_neg hb
  -- the divisor is cancelled before anything is rounded
  have hwhole : nearestRank (unitsAt a.val * unitsPerOne) (unitsAt b.val) =
      nearestRank (n.natAbs * unitsPerOne) 1 := by
    rw [hunits, mul_right_comm, ← nearestRank_mul_right Nat.one_pos hpos, one_mul]
  rw [hdiv, ofRatio, hwhole, ← ofRatio, toRat?_ofRatio_mul _ hle, hsign]

/-! ## Quotient and remainder -/

/-- A whole number is settled on itself. -/
theorem toRat?_settle_intCast (hx : x.toRat? = some (n : ℚ)) :
    (settle x a b).toRat? = some (n : ℚ) := by
  rw [settle, isZero_eq hx]
  split
  · next hzero =>
    rw [decide_eq_true_eq] at hzero
    rw [toRat?_zero, hzero]
  have hfloor := toRat?_floor hx
  rw [Int.floor_intCast] at hfloor
  have hsub := toRat?_sub_intCast hx hfloor (by simp)
  rw [lt_eq toRat?_half hsub, sub_self, if_neg (by norm_num), hfloor]

/-- Something is left only of divisors that are not one, so not all 53 bits are needed for how often
they are taken away. -/
theorem abs_sub_one_le {r : Int} (hr : r ≠ 0) (hlt : |r| < |j|) (hle : |n * j| ≤ 2 ^ 53) :
    |n - 1| ≤ 2 ^ 53 := by
  have hj : 2 ≤ |j| := by
    have := Int.one_le_abs hr
    omega
  have hn : |n| * 2 ≤ 2 ^ 53 := by
    rw [abs_mul] at hle
    exact (mul_le_mul_of_nonneg_left hj (abs_nonneg n)).trans hle
  have := abs_sub n 1
  rw [abs_one] at this
  omega

/-- No step towards the quotient and the remainder of whole numbers is rounded. -/
theorem toRat?_flooredParts_intCast (ha : a.toRat? = some (i : ℚ)) (hb : b.toRat? = some (j : ℚ))
    (hi : |i| ≤ 2 ^ 53) (hj : |j| ≤ 2 ^ 53) (hne : j ≠ 0) :
    (flooredParts a b).1.toRat? = some (⌊(i : ℚ) / j⌋ : ℚ) ∧
      (flooredParts a b).2.toRat? = some ((i - j * ⌊(i : ℚ) / j⌋ : Int) : ℚ) := by
  have hne' : (j : ℚ) ≠ 0 := Int.cast_ne_zero.2 hne
  obtain ⟨n, hrem, hlt, hle, hcases⟩ := flooredParts_cases ha hb hne'
  have hrem' : (a.rem b).toRat? = some ((i - n * j : Int) : ℚ) := by
    rw [hrem]
    push_cast
    rfl
  have hlt' : |i - n * j| < |j| := by exact_mod_cast hlt
  have hle' : |n * j| ≤ 2 ^ 53 := le_trans (by exact_mod_cast hle) hi
  have hn : |n| ≤ 2 ^ 53 := by
    have := le_mul_of_one_le_right (abs_nonneg n) (Int.one_le_abs hne)
    rw [← abs_mul] at this
    exact this.trans hle'
  have hquotient : ((a - a.rem b) / b).toRat? = some (n : ℚ) := by
    refine toRat?_div_of_mul ?_ hb hne' hn
    rw [toRat?_sub_intCast ha hrem' (by rwa [sub_sub_cancel]), sub_sub_cancel, Int.cast_mul]
  rcases hcases with ⟨hzero, hfloor, hparts⟩ | ⟨hneg, hfloor, hparts⟩ | ⟨hpos, hfloor, hparts⟩
  all_goals rw [hparts, hfloor, mul_comm]
  · refine ⟨hquotient, ?_⟩
    rw [toRat?_zero]
    push_cast
    rw [hzero]
  · have hr : i - n * j ≠ 0 := by exact_mod_cast (div_ne_zero_iff.1 hneg.ne).1
    obtain ⟨-, -, hless, -⟩ := add_between hneg hlt
    have hsum : |i - n * j + j| ≤ 2 ^ 53 := le_trans (by exact_mod_cast hless.le) hj
    refine ⟨toRat?_sub_intCast hquotient toRat?_one_intCast (abs_sub_one_le hr hlt' hle'), ?_⟩
    rw [toRat?_add_intCast hrem' hb hsum]
    congr 2
    ring
  · exact ⟨hquotient, hrem'⟩

/-- What the floor of a quotient leaves is smaller than the divisor, and on its side of zero. -/
theorem sub_mul_floor_bounds (i : Int) (hne : j ≠ 0) :
    (i - j * ⌊(i : ℚ) / j⌋ = 0 ∨ (i - j * ⌊(i : ℚ) / j⌋ < 0 ↔ j < 0)) ∧
      |i - j * ⌊(i : ℚ) / j⌋| < |j| := by
  have hne' : (j : ℚ) ≠ 0 := Int.cast_ne_zero.2 hne
  have hleft : ((i - j * ⌊(i : ℚ) / j⌋ : Int) : ℚ) = j * Int.fract ((i : ℚ) / j) := by
    rw [Int.fract]
    push_cast
    field_simp
  generalize i - j * ⌊(i : ℚ) / j⌋ = r at hleft ⊢
  have hnonneg := Int.fract_nonneg ((i : ℚ) / j)
  have hlt := Int.fract_lt_one ((i : ℚ) / j)
  generalize Int.fract ((i : ℚ) / j) = f at hleft hnonneg hlt
  constructor
  · rcases hnonneg.eq_or_lt with rfl | hpos
    · left
      exact_mod_cast hleft.trans (mul_zero _)
    · right
      have hside : (j * f : ℚ) < 0 ↔ (j : ℚ) < 0 :=
        ⟨fun h => neg_of_mul_neg_left h hpos.le, fun h => mul_neg_of_neg_of_pos h hpos⟩
      rw [← hleft] at hside
      exact_mod_cast hside
  · have habs : |(r : ℚ)| < |(j : ℚ)| := by
      rw [hleft, abs_mul, abs_of_nonneg hnonneg]
      exact mul_lt_of_lt_one_right (abs_pos.2 hne') hlt
    exact_mod_cast habs

/-- **Division of whole numbers.** The whole numbers up to `2 ^ 53` are the numbers of values, and
whichever values of these numbers are divided, the quotient is the floor of the exact one and the
remainder is what it leaves.  So both together give back the dividend, and the remainder is smaller
than the divisor and zero or on its side of zero. -/
theorem floorDivMod_intCast (hi : |i| ≤ 2 ^ 53) (hj : |j| ≤ 2 ^ 53) (hne : j ≠ 0) :
    (∃ a b : Binary64, a.toRat? = some (i : ℚ) ∧ b.toRat? = some (j : ℚ)) ∧
    ∀ a b : Binary64, a.toRat? = some (i : ℚ) → b.toRat? = some (j : ℚ) → ∃ q r : Int,
      (floorDivMod a b).1.toRat? = some (q : ℚ) ∧ (floorDivMod a b).2.toRat? = some (r : ℚ) ∧
        q = ⌊(i : ℚ) / j⌋ ∧ r = i - j * ⌊(i : ℚ) / j⌋ ∧
        i = j * q + r ∧ (r = 0 ∨ (r < 0 ↔ j < 0)) ∧ |r| < |j| := by
  refine ⟨?_, fun a b ha hb => ?_⟩
  · obtain ⟨a, ha⟩ := exists_toRat?_intCast hi
    obtain ⟨b, hb⟩ := exists_toRat?_intCast hj
    exact ⟨a, b, ha, hb⟩
  · obtain ⟨hq, hr⟩ := toRat?_flooredParts_intCast ha hb hi hj hne
    obtain ⟨hside, hless⟩ := sub_mul_floor_bounds i hne
    rw [floorDivMod_eq hb (Int.cast_ne_zero.2 hne)]
    exact ⟨_, _, toRat?_settle_intCast hq, hr, rfl, rfl, by ring, hside, hless⟩

/-- A third of the least dividend is not whole: it is rounded down, and one is left. -/
theorem floorDivMod_intCast_least :
    |(-2 ^ 53 : Int)| ≤ 2 ^ 53 ∧ |(3 : Int)| ≤ 2 ^ 53 ∧ (3 : Int) ≠ 0 ∧
    ∃ a b : Binary64, a.toRat? = some ((-2 ^ 53 : Int) : ℚ) ∧ b.toRat? = some ((3 : Int) : ℚ) ∧
      (floorDivMod a b).1.toRat? = some ((-3002399751580331 : Int) : ℚ) ∧
      (floorDivMod a b).2.toRat? = some ((1 : Int) : ℚ) := by
  have hi : |(-2 ^ 53 : Int)| ≤ 2 ^ 53 := by decide
  have hj : |(3 : Int)| ≤ 2 ^ 53 := by decide
  have hfloor : ⌊((-2 ^ 53 : Int) : ℚ) / (3 : Int)⌋ = -3002399751580331 := by
    rw [Int.floor_eq_iff]
    norm_num
  obtain ⟨⟨a, b, ha, hb⟩, hdivision⟩ := floorDivMod_intCast hi hj three_ne_zero
  obtain ⟨q, r, hq, hr, rfl, rfl, -⟩ := hdivision a b ha hb
  rw [hfloor] at hq hr
  exact ⟨hi, hj, three_ne_zero, a, b, ha, hb, hq, hr⟩

end Reckoner.Binary64
