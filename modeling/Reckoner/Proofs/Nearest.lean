import Reckoner.Proofs.Value

/-!
# The nearest value

Rounding gives the value that lies nearest to a number, and of two that lie equally near the one
whose last bit is zero.  An infinity takes the place of the first power of two past the finite
values, so that numbers overflow from the midpoint below it on.
-/

namespace Reckoner.Binary64

variable {x y : Binary64} {p q w v : ℚ} {n d r : Nat}

/-- Where a value lies on the line; NaN lies nowhere. -/
def place? (x : Binary64) : Option ℚ := x.position?.map fun z => z * unitSize

/-- Is the last bit of the value zero? -/
def isEven : Binary64 → Bool
  | nan => false
  | inf _ => rankCount % 2 = 0
  | finite _ rank => rank.val % 2 = 0

/-- No value lies nearer to the number, and if another one lies as near, the last bit is zero. -/
def IsNearest (x : Binary64) (p : ℚ) : Prop :=
  ∃ w, x.place? = some w ∧ ∀ (y : Binary64) (q : ℚ), y.place? = some q →
    |w - p| ≤ |q - p| ∧ (|q - p| = |w - p| → q = w ∨ x.isEven)

/-! ## Places -/

theorem place?_of_toRat? (h : x.toRat? = some p) : x.place? = some p := by
  obtain ⟨s, rank, rfl, rfl⟩ := toRat?_eq_some_iff.1 h
  rfl

theorem exists_of_place? (h : x.place? = some p) :
    ∃ s r, r ≤ rankCount ∧ p = signedUnits s (unitsAt r) * unitSize ∧
      x.isEven = decide (r % 2 = 0) := by
  cases x with
  | nan => cases h
  | inf s => exact ⟨s, rankCount, le_rfl, (Option.some.inj h).symm, rfl⟩
  | finite s rank => exact ⟨s, rank.val, rank.isLt.le, (Option.some.inj h).symm, rfl⟩

theorem place?_ofRank (s : Bool) (r : Nat) : (ofRank s r).place? =
    some (signedUnits s (unitsAt (min r rankCount)) * unitSize) := by
  rw [ofRank]
  split
  · next hlt => rw [min_eq_left hlt.le]; rfl
  · next hge => rw [min_eq_right (Nat.not_lt.1 hge)]; rfl

theorem isEven_ofRank (s : Bool) (r : Nat) :
    (ofRank s r).isEven = decide (min r rankCount % 2 = 0) := by
  rw [ofRank]
  split
  · next hlt => rw [min_eq_left hlt.le]; rfl
  · next hge => rw [min_eq_right (Nat.not_lt.1 hge)]; rfl

/-! ## Rounding to the nearest place -/

/-- A number from the midpoint on lies nearer to the upper end, except on the midpoint itself. -/
theorem abs_sub_le_of_add_le (hlt : v < w) (h : v + w ≤ 2 * q) :
    |w - q| ≤ |v - q| ∧ (|v - q| = |w - q| → v + w = 2 * q) := by
  rw [abs_of_neg (show v - q < 0 by linarith)]
  refine ⟨abs_le.2 ⟨by linarith, by linarith⟩, fun heq => ?_⟩
  rcases abs_cases (w - q) with ⟨hw, -⟩ | ⟨hw, -⟩ <;> linarith

/-- A number up to the midpoint lies nearer to the lower end, except on the midpoint itself. -/
theorem abs_sub_le_of_le_add (hlt : w < v) (h : 2 * q ≤ w + v) :
    |w - q| ≤ |v - q| ∧ (|v - q| = |w - q| → w + v = 2 * q) := by
  have hneg := abs_sub_le_of_add_le (neg_lt_neg hlt) (show -v + -w ≤ 2 * -q by linarith)
  rw [neg_sub_neg, neg_sub_neg, abs_sub_comm q, abs_sub_comm q] at hneg
  exact ⟨hneg.1, fun heq => by linarith [hneg.2 heq]⟩

/-- The midpoint above a rank decides whether a fraction is rounded past it. -/
theorem lt_nearestRank_iff_lt_div (hd : 0 < d) : r < nearestRank n d ↔
    (unitsAt r + unitsAt (r + 1) : ℚ) < 2 * (n / d) ∨
      ((unitsAt r + unitsAt (r + 1) : ℚ) = 2 * (n / d) ∧ r % 2 = 1) := by
  have hd' : (0 : ℚ) < d := Nat.cast_pos.2 hd
  rw [lt_nearestRank_iff hd, ← mul_div_assoc, lt_div_iff₀ hd', eq_div_iff hd'.ne']
  norm_cast

/-- Of all magnitudes, that of the rank found lies nearest to the fraction. -/
theorem abs_unitsAt_nearestRank_le (hd : 0 < d) (n : Nat) (hr : r ≤ rankCount) :
    |(unitsAt (min (nearestRank n d) rankCount) : ℚ) - n / d| ≤ |(unitsAt r : ℚ) - n / d| ∧
    (|(unitsAt r : ℚ) - n / d| = |(unitsAt (min (nearestRank n d) rankCount) : ℚ) - n / d| →
      r = min (nearestRank n d) rankCount ∨ min (nearestRank n d) rankCount % 2 = 0) := by
  have hmono : ∀ {j k}, j ≤ k → (unitsAt j : ℚ) ≤ unitsAt k := fun h =>
    Nat.cast_le.2 (unitsAt_strictMono.monotone h)
  have hstrict : ∀ {j k}, j < k → (unitsAt j : ℚ) < unitsAt k := fun h =>
    Nat.cast_lt.2 (unitsAt_strictMono h)
  rcases lt_trichotomy r (min (nearestRank n d) rankCount) with hlt | heq | hgt
  · obtain ⟨k, hk⟩ : ∃ k, min (nearestRank n d) rankCount = k + 1 :=
      Nat.exists_eq_succ_of_ne_zero (by omega)
    have hbelow : k < nearestRank n d := by omega
    have hle : (unitsAt r : ℚ) ≤ unitsAt k := hmono (by omega)
    rw [hk] at hlt ⊢
    rcases (lt_nearestRank_iff_lt_div hd).1 hbelow with hmid | ⟨hmid, hodd⟩
    · obtain ⟨hnear, htie⟩ := abs_sub_le_of_add_le (hstrict hlt)
        (show (unitsAt r : ℚ) + unitsAt (k + 1) ≤ 2 * (n / d) by linarith)
      exact ⟨hnear, fun h => absurd (htie h) (by linarith)⟩
    · exact ⟨(abs_sub_le_of_add_le (hstrict hlt) (by linarith)).1, fun _ => .inr (by omega)⟩
  · rw [heq]
    exact ⟨le_rfl, fun _ => .inl rfl⟩
  · -- the rank found is not past the finite values
    have hrank : min (nearestRank n d) rankCount = nearestRank n d := by omega
    rw [hrank] at hgt ⊢
    have hle : (unitsAt (nearestRank n d + 1) : ℚ) ≤ unitsAt r := hmono hgt
    have habove := mt (lt_nearestRank_iff_lt_div hd).2 (lt_irrefl (nearestRank n d))
    push Not at habove
    obtain ⟨hmid, heven⟩ := habove
    obtain ⟨hnear, htie⟩ := abs_sub_le_of_le_add (hstrict hgt) (hmid.trans (by linarith))
    refine ⟨hnear, fun h => .inr ?_⟩
    have := heven (le_antisymm (by linarith [htie h]) hmid)
    omega

/-- On the other side of zero nothing lies nearer than zero itself. -/
theorem abs_unitsAt_nearestRank_le_of_sign (hd : 0 < d) (n : Nat) (hr : r ≤ rankCount)
    (hv : v = unitsAt r ∨ v = -unitsAt r) :
    |(unitsAt (min (nearestRank n d) rankCount) : ℚ) - n / d| ≤ |v - n / d| ∧
    (|v - n / d| = |(unitsAt (min (nearestRank n d) rankCount) : ℚ) - n / d| →
      v = unitsAt (min (nearestRank n d) rankCount) ∨
        min (nearestRank n d) rankCount % 2 = 0) := by
  rcases hv with rfl | rfl
  · obtain ⟨hnear, htie⟩ := abs_unitsAt_nearestRank_le hd n hr
    exact ⟨hnear, fun h => (htie h).imp_left fun heq => by rw [heq]⟩
  · obtain ⟨hnear, htie⟩ := abs_unitsAt_nearestRank_le hd n (Nat.zero_le rankCount)
    have hq : (0 : ℚ) ≤ n / d := by positivity
    have hu : (0 : ℚ) ≤ unitsAt r := Nat.cast_nonneg _
    rw [unitsAt_zero, Nat.cast_zero, zero_sub, abs_neg, abs_of_nonneg hq] at hnear htie
    rw [← neg_add', abs_neg, abs_of_nonneg (add_nonneg hu hq)]
    refine ⟨hnear.trans (by linarith), fun heq => ?_⟩
    have hzero : (unitsAt r : ℚ) = 0 := by linarith
    rw [hzero] at heq ⊢
    refine (htie (by linarith)).imp_left fun h => ?_
    rw [← h, unitsAt_zero, Nat.cast_zero, neg_zero]

/-- Distances on one side of zero, in units. -/
theorem abs_signedUnits_sub (s : Bool) (v q : ℚ) :
    |signedUnits s 1 * v * unitSize - signedUnits s 1 * q * unitSize| = |v - q| * unitSize := by
  rw [← sub_mul, ← mul_sub, abs_mul, abs_mul, abs_of_pos unitSize_pos]
  cases s <;> simp [signedUnits]

/-- A fraction of units is rounded to the nearest value. -/
theorem isNearest_ofRatio (hd : 0 < d) (s : Bool) (n : Nat) :
    IsNearest (ofRatio s n d) (signedUnits s n / d * unitSize) := by
  have hfraction : (signedUnits s n / d * unitSize : ℚ) = signedUnits s 1 * (n / d) * unitSize := by
    rw [signedUnits_eq_mul]
    ring
  refine ⟨_, place?_ofRank s _, fun y u hy => ?_⟩
  obtain ⟨t, r, hr, rfl, -⟩ := exists_of_place? hy
  -- seen from the side of the fraction, the other value has a magnitude with a sign
  obtain ⟨v, hv, hplace⟩ : ∃ v : ℚ, (v = unitsAt r ∨ v = -unitsAt r) ∧
      (signedUnits t (unitsAt r) : ℚ) = signedUnits s 1 * v := by
    cases s <;> cases t <;> simp [signedUnits]
  obtain ⟨hnear, htie⟩ := abs_unitsAt_nearestRank_le_of_sign hd n hr hv
  rw [hfraction, hplace, signedUnits_eq_mul s (unitsAt _), mul_comm _ (signedUnits s 1 : ℚ),
    abs_signedUnits_sub, abs_signedUnits_sub, ofRatio, isEven_ofRank, decide_eq_true_eq,
    mul_left_inj' unitSize_pos.ne']
  exact ⟨mul_le_mul_of_nonneg_right hnear unitSize_pos.le,
    fun h => (htie h).imp_left fun heq => by rw [heq]⟩

/-- A value is the nearest one to its own number. -/
theorem isNearest_of_toRat? (h : x.toRat? = some p) : IsNearest x p := by
  refine ⟨p, place?_of_toRat? h, fun y q _ => ⟨?_, fun heq => .inl ?_⟩⟩
  · rw [sub_self, abs_zero]
    exact abs_nonneg _
  · rwa [sub_self, abs_zero, abs_eq_zero, sub_eq_zero] at heq

theorem isNearest_ofUnits (s : Bool) (z : Int) : IsNearest (ofUnits s z) (z * unitSize) := by
  rw [ofUnits]
  split
  · next hz =>
    rw [hz, Int.cast_zero, zero_mul]
    exact isNearest_of_toRat? (toRat?_zero s)
  · have h := isNearest_ofRatio Nat.one_pos (decide (z < 0)) z.natAbs
    rwa [signedUnits_natAbs, Nat.cast_one, div_one] at h

/-- The sum of two finite values is rounded once. -/
theorem isNearest_add (hx : x.toRat? = some p) (hy : y.toRat? = some q) :
    IsNearest (x + y) (p + q) := by
  obtain ⟨s, a, rfl, rfl⟩ := toRat?_eq_some_iff.1 hx
  obtain ⟨t, b, rfl, rfl⟩ := toRat?_eq_some_iff.1 hy
  rw [← add_mul, ← Int.cast_add]
  exact isNearest_ofUnits _ _

/-- Between zero and a value, no number is rounded to a larger magnitude than that of the value. -/
theorem IsNearest.abs_le (h : IsNearest x p) (hx : x.toRat? = some w) (hy : y.toRat? = some q)
    (hpq : |q - p| + |p| = |q|) : |w| ≤ |q| := by
  obtain ⟨w', hw', hnear⟩ := h
  cases hw'.symm.trans (place?_of_toRat? hx)
  have hle := (hnear y q (place?_of_toRat? hy)).1
  have := abs_add_le (w - p) p
  rw [sub_add_cancel] at this
  linarith

/-! ## Only one place is nearest -/

/-- Between two even ranks on the line lies another one. -/
theorem exists_signedUnits_between {s t : Bool} {j k : Nat} (hj : j % 2 = 0) (hk : k % 2 = 0)
    (h : signedUnits s (unitsAt j) < signedUnits t (unitsAt k)) :
    ∃ u i, i ≤ max j k ∧ signedUnits s (unitsAt j) < signedUnits u (unitsAt i) ∧
      signedUnits u (unitsAt i) < signedUnits t (unitsAt k) := by
  have hstrict : ∀ {m n}, m < n → (unitsAt m : Int) < unitsAt n := fun h =>
    Int.ofNat_lt.2 (unitsAt_strictMono h)
  have hone : (0 : Int) < unitsAt 1 := Int.natCast_pos.2 (unitsAt_pos Nat.one_pos)
  cases s with
  | false =>
    cases t with
    | false =>
      have hlt : j < k := unitsAt_strictMono.lt_iff_lt.1 (Int.ofNat_lt.1 h)
      exact ⟨false, j + 1, by omega, hstrict (by omega), hstrict (by omega)⟩
    | true =>
      have hneg : (unitsAt j : Int) < -unitsAt k := h
      omega
  | true =>
    cases t with
    | false =>
      -- the least magnitude lies between, on a side that does not end at zero
      rcases Nat.eq_zero_or_pos j with rfl | hpos
      · have hne : k ≠ 0 := by
          rintro rfl
          exact lt_irrefl _ h
        exact ⟨false, 1, by omega, hone, hstrict (by omega)⟩
      · have hle : (0 : Int) ≤ unitsAt k := Int.natCast_nonneg _
        exact ⟨true, 1, by omega, neg_lt_neg (hstrict (by omega)),
          (neg_neg_of_pos hone).trans_le hle⟩
    | true =>
      have hlt : k < j := unitsAt_strictMono.lt_iff_lt.1 (Int.ofNat_lt.1 (neg_lt_neg_iff.1 h))
      exact ⟨true, k + 1, by omega, neg_lt_neg (hstrict (by omega)),
        neg_lt_neg (hstrict (by omega))⟩

theorem exists_place?_between (hx : x.place? = some p) (hy : y.place? = some q)
    (hx' : x.isEven) (hy' : y.isEven) (h : p < q) :
    ∃ (z : Binary64) (w : ℚ), z.place? = some w ∧ p < w ∧ w < q := by
  obtain ⟨s, j, hj, rfl, hjeven⟩ := exists_of_place? hx
  obtain ⟨t, k, hk, rfl, hkeven⟩ := exists_of_place? hy
  rw [hjeven, decide_eq_true_eq] at hx'
  rw [hkeven, decide_eq_true_eq] at hy'
  rw [mul_lt_mul_iff_of_pos_right unitSize_pos, Int.cast_lt] at h
  obtain ⟨u, i, hi, hlow, hhigh⟩ := exists_signedUnits_between hx' hy' h
  refine ⟨ofRank u i, _, place?_ofRank u i, ?_⟩
  rw [min_eq_left (hi.trans (max_le hj hk)), mul_lt_mul_iff_of_pos_right unitSize_pos,
    mul_lt_mul_iff_of_pos_right unitSize_pos, Int.cast_lt, Int.cast_lt]
  exact ⟨hlow, hhigh⟩

/-- A number with two places at equal distance is the midpoint, and what lies between them is nearer
to it. -/
theorem abs_sub_lt_of_between {u : ℚ} (hlow : w < u) (hhigh : u < v) (heq : |w - p| = |v - p|) :
    |u - p| < |w - p| := by
  rcases abs_eq_abs.1 heq with hsame | hopposite
  · linarith
  · rw [abs_of_neg (show w - p < 0 by linarith), abs_lt]
    constructor <;> linarith

/-- Only one place is nearest to a number, so that only zeros may differ in being so. -/
theorem IsNearest.place?_eq (hx : IsNearest x p) (hy : IsNearest y p) : x.place? = y.place? := by
  obtain ⟨w, hw, hxnear⟩ := hx
  obtain ⟨v, hv, hynear⟩ := hy
  rw [hw, hv, Option.some.injEq]
  have heq : |w - p| = |v - p| := le_antisymm (hxnear y v hv).1 (hynear x w hw).1
  by_contra hne
  have hxeven : x.isEven := ((hxnear y v hv).2 heq.symm).resolve_left (Ne.symm hne)
  have hyeven : y.isEven := ((hynear x w hw).2 heq).resolve_left hne
  rcases lt_or_gt_of_ne hne with hlt | hlt
  · obtain ⟨z, u, hz, hlow, hhigh⟩ := exists_place?_between hw hv hxeven hyeven hlt
    exact absurd (hxnear z u hz).1 (abs_sub_lt_of_between hlow hhigh heq).not_ge
  · obtain ⟨z, u, hz, hlow, hhigh⟩ := exists_place?_between hv hw hyeven hxeven hlt
    exact absurd (hynear z u hz).1 (abs_sub_lt_of_between hlow hhigh heq.symm).not_ge

theorem exists_eq_ofRank_of_place? (h : x.place? = some p) :
    ∃ r, x = ofRank x.isSigned r ∧ p = signedUnits x.isSigned (unitsAt r) * unitSize := by
  cases x with
  | nan => cases h
  | inf s => exact ⟨rankCount, by simp [ofRank, isSigned], (Option.some.inj h).symm⟩
  | finite s rank => exact ⟨rank.val, (ofRank_val s rank).symm, (Option.some.inj h).symm⟩

/-- Only the two zeros have one place. -/
theorem eq_of_place?_eq (hx : x.place? = some p) (hy : y.place? = some p)
    (hsign : x.isSigned = y.isSigned) : x = y := by
  obtain ⟨r, hxr, hp⟩ := exists_eq_ofRank_of_place? hx
  obtain ⟨k, hyk, hq⟩ := exists_eq_ofRank_of_place? hy
  have hunits : signedUnits x.isSigned (unitsAt r) = signedUnits x.isSigned (unitsAt k) := by
    rw [hp, ← hsign, mul_left_inj' unitSize_pos.ne', Int.cast_inj] at hq
    exact hq
  have hrank : r = k := unitsAt_strictMono.injective (by simpa using congrArg Int.natAbs hunits)
  rw [hxr, hyk, hsign, hrank]

/-- Only one value of each sign is nearest to a number. -/
theorem IsNearest.eq (hx : IsNearest x p) (hy : IsNearest y p) (hsign : x.isSigned = y.isSigned) :
    x = y := by
  have heq := hx.place?_eq hy
  obtain ⟨w, hw, -⟩ := hx
  exact eq_of_place?_eq hw (heq ▸ hw) hsign

/-! ## Signs -/

theorem mul_unitSize_neg_iff {z : Int} : (z * unitSize : ℚ) < 0 ↔ z < 0 := by
  rw [← not_iff_not, not_lt, not_lt, mul_nonneg_iff_of_pos_right unitSize_pos, Int.cast_nonneg_iff]

/-- The sign bit of a value other than zero is the sign of its number. -/
theorem isSigned_eq (h : x.toRat? = some p) (hp : p ≠ 0) : x.isSigned = decide (p < 0) := by
  obtain ⟨s, rank, rfl, rfl⟩ := toRat?_eq_some_iff.1 h
  have hne : signedUnits s (unitsAt rank.val) ≠ 0 := fun hzero => hp (by simp [hzero])
  simp only [mul_unitSize_neg_iff, isSigned]
  cases s <;> simp [signedUnits] at hne ⊢
  exact Nat.pos_of_ne_zero hne

theorem isSigned_ofRatio (s : Bool) (n d : Nat) : (ofRatio s n d).isSigned = s := by
  rw [ofRatio, ofRank]
  split <;> rfl

theorem isSigned_ofUnits (s : Bool) {z : Int} (hz : z ≠ 0) :
    (ofUnits s z).isSigned = decide (z < 0) := by
  rw [ofUnits, if_neg hz, isSigned_ofRatio]

/-- The sign bit of a sum other than zero is the sign of the exact sum. -/
theorem isSigned_add (hx : x.toRat? = some p) (hy : y.toRat? = some q) (h : p + q ≠ 0) :
    (x + y).isSigned = decide (p + q < 0) := by
  obtain ⟨s, a, rfl, rfl⟩ := toRat?_eq_some_iff.1 hx
  obtain ⟨t, b, rfl, rfl⟩ := toRat?_eq_some_iff.1 hy
  rw [← add_mul, ← Int.cast_add] at h ⊢
  simp only [mul_unitSize_neg_iff]
  exact isSigned_ofUnits _ fun hzero => h (by rw [hzero, Int.cast_zero, zero_mul])

/-! ## Overflow -/

/-- The midpoint between the greatest finite value and the first power of two past it. -/
theorem unitsAt_add_unitsAt_rankCount : (unitsAt (rankCount - 1) + unitsAt rankCount : ℚ) =
    2 * ((2 ^ 1024 - 2 ^ 970) * unitsPerOne) := by
  have hlast : rankCount - 1 = 2045 * binade + (2 * binade - 1) := by decide
  have hpast : rankCount = 2045 * binade + 2 * binade := by decide
  have hlast' : ((2 * binade - 1 : Nat) : ℚ) = 2 ^ 53 - 1 := by norm_num
  have hpast' : ((2 * binade : Nat) : ℚ) = 2 ^ 53 := by norm_num
  have hwidth : (2 : ℚ) ^ 2045 = 2 ^ 970 * (2 * 2 ^ 1074) := by rw [← pow_succ', ← pow_add]
  have hpower : (2 : ℚ) ^ 1024 = 2 ^ 54 * 2 ^ 970 := by rw [← pow_add]
  rw [hlast, unitsAt_mul_add (by decide) (by decide), hpast, unitsAt_mul_add le_rfl (by decide),
    unitsPerOne_eq, Nat.cast_mul, Nat.cast_mul, hlast', hpast', Nat.cast_pow, Nat.cast_pow,
    Nat.cast_two, hwidth, hpower]
  generalize (2 : ℚ) ^ 970 = a
  generalize (2 : ℚ) ^ 1074 = b
  ring

/-- A fraction of units overflows from the midpoint on. -/
theorem exists_ofRatio_eq_inf_iff (hd : 0 < d) (s : Bool) (n : Nat) :
    (∃ t, ofRatio s n d = .inf t) ↔ (2 ^ 1024 - 2 ^ 970 : ℚ) ≤ n / d * unitSize := by
  have hrank : (∃ t, ofRatio s n d = .inf t) ↔ rankCount - 1 < nearestRank n d := by
    rw [Nat.sub_lt_iff_lt_add (by decide), Nat.lt_add_one_iff, ofRatio, ofRank]
    split <;> simp <;> omega
  have hmid := unitsAt_add_unitsAt_rankCount
  have hodd : (rankCount - 1) % 2 = 1 := by decide
  have hlast : rankCount - 1 + 1 = rankCount := rfl
  rw [hrank, lt_nearestRank_iff_lt_div hd, hlast, hmid, and_iff_left hodd, ← le_iff_lt_or_eq,
    mul_le_mul_iff_right₀ two_pos, ← mul_le_mul_iff_left₀ unitSize_pos, mul_assoc,
    unitsPerOne_mul_unitSize, mul_one]

end Reckoner.Binary64
