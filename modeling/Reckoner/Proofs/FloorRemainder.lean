import Reckoner.Proofs.FloorQuotient
import Reckoner.Proofs.Nearest

/-!
# The floored remainder

The remainder towards zero is exact.  It is the floored one already if it lies on the divisor's side
of zero; otherwise the divisor is added, and the sum is the only thing that is rounded.
-/

namespace Reckoner.Binary64

variable {a b : Binary64} {x y : ℚ}

/-! ## Finite divisors -/

/-- One divisor more brings a remainder across zero, between zero and the divisor. -/
theorem add_between {r : ℚ} (hneg : r / y < 0) (hlt : |r| < |y|) :
    r + y ≠ 0 ∧ (r + y < 0 ↔ y < 0) ∧ |r + y| < |y| ∧ |y - (r + y)| + |r + y| = |y| := by
  rw [sub_add_cancel_right, abs_neg]
  rcases div_neg_iff.1 hneg with ⟨hr, hy⟩ | ⟨hr, hy⟩
  · rw [abs_of_pos hr, abs_of_neg hy] at *
    rw [abs_of_neg (show r + y < 0 by linarith)]
    exact ⟨by linarith, iff_of_true (by linarith) hy, by linarith, by ring⟩
  · rw [abs_of_neg hr, abs_of_pos hy] at *
    rw [abs_of_pos (show 0 < r + y by linarith)]
    exact ⟨by linarith, iff_of_false (by linarith) hy.not_gt, by linarith, by ring⟩

/-- The remainder is the nearest value to the exact one, has the sign of the divisor, and is not
larger. -/
theorem isNearest_floorMod (ha : a.toRat? = some x) (hb : b.toRat? = some y) (hy : y ≠ 0) :
    (floorMod a b).IsNearest (x - y * ⌊x / y⌋) ∧ (floorMod a b).isSigned = b.isSigned ∧
      ∃ w, (floorMod a b).toRat? = some w ∧ |w| ≤ |y| := by
  obtain ⟨n, hrem, hlt, -, hcases⟩ := flooredParts_cases ha hb hy
  have hsign := isSigned_eq hb hy
  rw [floorMod, floorDivMod_eq hb hy]
  rcases hcases with ⟨hzero, hfloor, hparts⟩ | ⟨hneg, hfloor, hparts⟩ | ⟨hpos, hfloor, hparts⟩
  all_goals rw [hparts, hfloor, mul_comm]
  · rw [hzero]
    refine ⟨isNearest_of_toRat? (toRat?_zero _), rfl, 0, toRat?_zero _, ?_⟩
    rw [abs_zero]
    exact abs_nonneg y
  · obtain ⟨hne, hside, hless, hbetween⟩ := add_between hneg hlt
    have hexact : x - ((n - 1 : Int) : ℚ) * y = x - n * y + y := by
      push_cast
      ring
    have hnearest := isNearest_add hrem hb
    obtain ⟨w, hw, -⟩ := exists_near_add hrem hb (hless.le.trans (abs_le_greatest hb))
    rw [hexact]
    refine ⟨hnearest, ?_, w, hw, hnearest.abs_le hw hb hbetween⟩
    rw [isSigned_add hrem hb hne, hsign, decide_eq_decide]
    exact hside
  · refine ⟨isNearest_of_toRat? hrem, ?_, _, hrem, hlt.le⟩
    rw [isSigned_eq hrem (div_ne_zero_iff.1 hpos.ne').1, hsign, decide_eq_decide]
    rcases div_pos_iff.1 hpos with ⟨hr, hd⟩ | ⟨hr, hd⟩
    · exact iff_of_false hr.not_gt hd.not_gt
    · exact iff_of_true hr hd

/-! ## Infinite divisors and NaN -/

theorem lt_zero_inf (s : Bool) : (inf s).lt (zero false) = s := by
  have hpos : 0 < unitsAt rankCount := unitsAt_pos (by decide)
  cases s <;> simp [lt, position?, signedUnits, zero, hpos]

/-- An infinite divisor is not taken away at all from what has its sign, and is left of what has
not. -/
theorem floorMod_inf (ha : a.toRat? = some x) (s : Bool) :
    floorMod a (inf s) = if x = 0 then zero s else if a.isSigned = s then a else inf s := by
  have hparts : floorMod a (inf s) = (flooredParts a (inf s)).2 := rfl
  have hrem : a.rem (inf s) = a ∧ a + inf s = inf s := by
    obtain ⟨t, rank, rfl, -⟩ := toRat?_eq_some_iff.1 ha
    exact ⟨rfl, rfl⟩
  rw [hparts, flooredParts, hrem.1, isZero_eq ha, lt_zero_inf, lt_eq ha (toRat?_zero false)]
  simp only [decide_eq_true_eq]
  split
  · rfl
  next hx =>
  rw [← isSigned_eq ha hx]
  rcases eq_or_ne a.isSigned s with rfl | hne
  · rw [if_neg (by simp), if_pos rfl]
  · rw [if_pos (bne_iff_ne.2 hne.symm), if_neg hne]
    exact hrem.2

theorem nan_add (x : Binary64) : nan + x = nan := by cases x <;> rfl

/-- If the remainder towards zero is NaN, the floored one is. -/
theorem floorMod_eq_nan (h : a.rem b = nan) : floorMod a b = nan := by
  rw [floorMod, floorDivMod, flooredParts, h]
  split
  · rfl
  rw [if_neg (show ¬ nan.isZero = true by decide)]
  split
  · exact nan_add b
  · rfl

/-- There is no remainder of what is not finite, nor one that a zero leaves. -/
theorem floorMod_eq_nan_iff : floorMod a b = nan ↔
    a = nan ∨ (∃ s, a = inf s) ∨ (∃ s, b = zero s) ∨ b = nan := by
  constructor
  · intro h
    cases a with
    | nan => exact .inl rfl
    | inf s => exact .inr (.inl ⟨s, rfl⟩)
    | finite s rank =>
      have ha : (finite s rank).toRat? = some _ := rfl
      cases b with
      | nan => exact .inr (.inr (.inr rfl))
      | inf t =>
        rw [floorMod_inf ha] at h
        split at h
        · cases h
        · split at h <;> cases h
      | finite t rank' =>
        have hb : (finite t rank').toRat? = some _ := rfl
        by_cases hzero : rank'.val = 0
        · exact .inr (.inr (.inl ⟨t, congrArg (finite t) (Fin.ext hzero)⟩))
        · have hne := isZero_eq hb
          rw [isZero, decide_eq_false hzero, eq_comm, decide_eq_false_iff_not] at hne
          obtain ⟨-, -, w, hw, -⟩ := isNearest_floorMod ha hb hne
          rw [h] at hw
          cases hw
  · intro h
    refine floorMod_eq_nan ?_
    rcases h with rfl | ⟨s, rfl⟩ | ⟨s, rfl⟩ | rfl
    · cases b <;> rfl
    · cases b <;> rfl
    · cases a <;> rfl
    · cases a <;> rfl

/-- **The floored remainder.** Of two finite values it is the value nearest to the exact remainder,
with the sign bit of the divisor and not larger than the divisor.  An infinite divisor leaves a
value of its own sign as it is, of a zero a zero of its own sign, and of anything else itself.  The
remainder is NaN for just those operands that have none. -/
theorem floorMod_nearest_remainder :
    (∀ (a b : Binary64) (x y : ℚ), a.toRat? = some x → b.toRat? = some y → y ≠ 0 →
      (floorMod a b).IsNearest (x - y * ⌊x / y⌋) ∧ (floorMod a b).isSigned = b.isSigned ∧
        ∃ w, (floorMod a b).toRat? = some w ∧ |w| ≤ |y|) ∧
    (∀ (a : Binary64) (x : ℚ) (s : Bool), a.toRat? = some x → floorMod a (inf s) =
      if x = 0 then zero s else if a.isSigned = s then a else inf s) ∧
    ∀ a b : Binary64, floorMod a b = nan ↔
      a = nan ∨ (∃ s, a = inf s) ∨ (∃ s, b = zero s) ∨ b = nan :=
  ⟨fun _ _ _ _ ha hb hy => isNearest_floorMod ha hb hy, fun _ _ s ha => floorMod_inf ha s,
    fun _ _ => floorMod_eq_nan_iff⟩

/-- What the least negative value leaves of three is rounded up to three itself. -/
theorem floorMod_nearest_remainder_least :
    (ofRank true 1).toRat? = some (-unitSize) ∧ (ofRank false 0x4008000000000000).toRat? = some 3 ∧
    (floorMod (ofRank true 1) (ofRank false 0x4008000000000000)).IsNearest (3 - unitSize) ∧
    floorMod (ofRank true 1) (ofRank false 0x4008000000000000) =
      ofRank false 0x4008000000000000 := by
  have hleast : (ofRank true 1).toRat? = some (-unitSize) := by
    have hunits : unitsAt 1 = 1 := by decide
    rw [ofRank, dif_pos (by decide), toRat?, hunits]
    simp [signedUnits]
  have hthree : (ofRank false 0x4008000000000000).toRat? = some 3 := by
    have hunits : unitsAt 0x4008000000000000 = 3 * unitsPerOne := by decide +kernel
    rw [ofRank, dif_pos (by decide), toRat?, hunits, signedUnits_mul_unitsPerOne]
    rfl
  refine ⟨hleast, hthree, ?_, by decide +kernel⟩
  have hsmall : unitSize ≤ 1 := div_le_one_of_le₀ (Nat.one_le_cast.2 unitsPerOne_pos)
    (Nat.cast_nonneg _)
  have hfloor : ⌊-unitSize / 3⌋ = -1 := by
    have := unitSize_pos
    rw [Int.floor_eq_iff]
    push_cast
    constructor <;> linarith
  have hspec := (floorMod_nearest_remainder.1 _ _ _ _ hleast hthree three_ne_zero).1
  rw [hfloor] at hspec
  convert hspec using 1
  push_cast
  ring

end Reckoner.Binary64
