import Mathlib.Algebra.Order.Field.Basic
import Mathlib.Algebra.Order.Field.Rat
import Mathlib.Order.Monotone.Basic
import Mathlib.Tactic.FieldSimp
import Mathlib.Tactic.Ring
import Mathlib.Tactic.Linarith
import Reckoner.Binary64.Rounding

/-!
# Rounding by midpoints

Magnitudes rise with their ranks. A fraction is rounded past the rank `r` exactly if it lies past
the midpoint between the magnitudes of `r` and `r + 1`, or on it where `r` is odd. So a magnitude
is rounded to itself, larger fractions are not rounded to smaller ranks, and a fraction may be
expanded.
-/

namespace Reckoner

variable {n d k r e : Nat}

/-! ## Whole numbers -/

/-- A quotient is rounded past `k` if it is past the middle between `k` and `k + 1`, or there and
`k` is odd. -/
theorem lt_roundDiv_iff (hd : 0 < d) : k < roundDiv n d ↔
    (2 * k + 1) * d < 2 * n ∨ ((2 * k + 1) * d = 2 * n ∧ k % 2 = 1) := by
  have hn : d * (n / d) + n % d = n := Nat.div_add_mod n d
  have ht : n % d < d := Nat.mod_lt n hd
  rw [roundDiv]
  generalize n / d = q at hn ⊢
  generalize n % d = t at hn ht ⊢
  subst hn
  have hmiddle : (2 * k + 1) * d = 2 * (d * k) + d := by ring
  rw [hmiddle]
  rcases lt_trichotomy k q with hlt | rfl | hgt
  · obtain ⟨j, rfl⟩ := Nat.exists_eq_add_of_lt hlt
    have hq : d * (k + j + 1) = d * k + d * j + d := by ring
    rw [hq]
    split_ifs <;> omega
  · split_ifs <;> omega
  · obtain ⟨j, rfl⟩ := Nat.exists_eq_add_of_lt hgt
    have hk : d * (q + j + 1) = d * q + d * j + d := by ring
    rw [hk]
    split_ifs <;> omega

theorem le_roundDiv (hd : 0 < d) (h : k * d ≤ n) : k ≤ roundDiv n d := by
  cases k with
  | zero => exact Nat.zero_le _
  | succ k =>
    have hk : (k + 1) * d = k * d + d := by ring
    have hmiddle : (2 * k + 1) * d = 2 * (k * d) + d := by ring
    exact (lt_roundDiv_iff hd).2 (.inl (by omega))

theorem roundDiv_le (hd : 0 < d) (h : n ≤ k * d) : roundDiv n d ≤ k := by
  by_contra hlt
  have hmiddle : (2 * k + 1) * d = 2 * (k * d) + d := by ring
  rcases (lt_roundDiv_iff hd).1 (Nat.not_le.1 hlt) with hgt | ⟨heq, -⟩ <;> omega

/-- A quotient is off by half at most. -/
theorem abs_roundDiv_mul_sub_le (hd : 0 < d) (n : Nat) :
    2 * |(roundDiv n d * d : Int) - n| ≤ d := by
  have hlow : (2 * roundDiv n d) * d ≤ 2 * n + d := by
    cases h : roundDiv n d with
    | zero => omega
    | succ k =>
      have hk : (2 * (k + 1)) * d = (2 * k + 1) * d + d := by ring
      rcases (lt_roundDiv_iff hd).1 (show k < roundDiv n d by omega) with hlt | ⟨heq, -⟩ <;> omega
  have hhigh : 2 * n ≤ (2 * roundDiv n d + 1) * d := by
    by_contra hlt
    exact absurd ((lt_roundDiv_iff hd).2 (.inl (Nat.not_le.1 hlt))) (Nat.lt_irrefl _)
  zify at hlow hhigh
  rcases abs_cases ((roundDiv n d * d : Int) - n) with ⟨h, -⟩ | ⟨h, -⟩
  all_goals
    rw [h]
    linarith

theorem roundDiv_mul_self (hd : 0 < d) (k : Nat) : roundDiv (k * d) d = k := by
  rw [roundDiv, Nat.mul_mod_left, Nat.mul_div_cancel k hd, if_pos (by omega)]

namespace Binary64

/-! ## Magnitudes -/

theorem unitsPerOne_eq : unitsPerOne = 2 ^ 1074 := by
  rw [unitsPerOne, Nat.shiftLeft_eq, Nat.one_mul]

theorem unitsPerOne_pos : 0 < unitsPerOne := by
  rw [unitsPerOne_eq]
  exact Nat.two_pow_pos _

/-- `k` steps from where the steps are `2 ^ e` units wide. -/
theorem unitsAt_mul_add (hk : k ≤ 2 * binade) (h : e = 0 ∨ binade ≤ k) :
    unitsAt (e * binade + k) = k * 2 ^ e := by
  simp only [binade] at hk h
  rw [unitsAt, Nat.shiftLeft_eq]
  simp only [binade]
  rcases Nat.lt_or_ge k 0x10000000000000 with hlt | hge
  · obtain rfl : e = 0 := by omega
    rw [if_pos (by omega)]
    simp
  rw [if_neg (by omega)]
  rcases Nat.eq_or_lt_of_le hk with rfl | hlt
  · have hdiv : (e * 0x10000000000000 + 2 * 0x10000000000000) / 0x10000000000000 - 1 = e + 1 := by
      omega
    have hmod : (e * 0x10000000000000 + 2 * 0x10000000000000) % 0x10000000000000 = 0 := by omega
    rw [hdiv, hmod]
    ring
  · have hdiv : (e * 0x10000000000000 + k) / 0x10000000000000 - 1 = e := by omega
    have hmod : 0x10000000000000 + (e * 0x10000000000000 + k) % 0x10000000000000 = k := by omega
    rw [hdiv, hmod]

/-- Every rank is some steps away from where the steps have their width. -/
theorem exists_eq_mul_add (r : Nat) : ∃ e k, r = e * binade + k ∧ k < 2 * binade ∧
    (e = 0 ∨ binade ≤ k) := by
  rcases Nat.lt_or_ge r binade with hlt | hge
  · exact ⟨0, r, by omega, by omega, .inl rfl⟩
  · refine ⟨r / binade - 1, binade + r % binade, ?_, ?_, .inr ?_⟩
    all_goals
      simp only [binade] at *
      omega

@[simp] theorem unitsAt_zero : unitsAt 0 = 0 := by decide

theorem unitsAt_lt_succ (r : Nat) : unitsAt r < unitsAt (r + 1) := by
  obtain ⟨e, k, rfl, hk, h⟩ := exists_eq_mul_add r
  rw [Nat.add_assoc, unitsAt_mul_add (by omega) h, unitsAt_mul_add (by omega) (by omega)]
  exact Nat.mul_lt_mul_of_pos_right k.lt_succ_self (Nat.two_pow_pos e)

theorem unitsAt_strictMono : StrictMono unitsAt := strictMono_nat_of_lt_succ unitsAt_lt_succ

theorem unitsAt_pos (h : 0 < r) : 0 < unitsAt r := by
  simpa using unitsAt_strictMono h

/-! ## Fractions -/

/-- A fraction is cut where the steps are so wide that it is at least `2 ^ 52` of them, or where
they are single units. -/
theorem exists_nearestRank_eq (hd : 0 < d) (n : Nat) : ∃ e,
    nearestRank n d = e * binade + roundDiv n (d * 2 ^ e) ∧
      n < 2 * binade * (d * 2 ^ e) ∧ (e = 0 ∨ binade * (d * 2 ^ e) ≤ n) := by
  refine ⟨(n / d).log2 - 52, by rw [nearestRank, Nat.shiftLeft_eq], ?_, ?_⟩
  · have hlog : n / d < 2 ^ ((n / d).log2 - 52 + 53) :=
      Nat.lt_log2_self.trans_le (Nat.pow_le_pow_right (by decide) (by omega))
    calc
      n < 2 ^ ((n / d).log2 - 52 + 53) * d := (Nat.div_lt_iff_lt_mul hd).1 hlog
      _ = _ := by rw [pow_add, binade]; ring
  · rcases Nat.eq_zero_or_pos ((n / d).log2 - 52) with he | he
    · exact .inl he
    · have hne : n / d ≠ 0 := by
        intro h
        simp [h] at he
      have hlog : 2 ^ ((n / d).log2 - 52 + 52) ≤ n / d := by
        rw [Nat.sub_add_cancel (by omega)]
        exact Nat.log2_self_le hne
      refine .inr ?_
      calc
        _ = 2 ^ ((n / d).log2 - 52 + 52) * d := by rw [pow_add, binade]; ring
        _ ≤ n := (Nat.le_div_iff_mul_le hd).1 hlog

/-- The magnitude that a fraction is rounded to, in steps of the width where it is cut. -/
theorem exists_unitsAt_nearestRank_eq (hd : 0 < d) (n : Nat) : ∃ e,
    unitsAt (nearestRank n d) = roundDiv n (d * 2 ^ e) * 2 ^ e ∧
      n < 2 * binade * (d * 2 ^ e) ∧ (e = 0 ∨ binade * (d * 2 ^ e) ≤ n) := by
  obtain ⟨e, hrank, hlt, hge⟩ := exists_nearestRank_eq hd n
  have hpos : 0 < d * 2 ^ e := Nat.mul_pos hd (Nat.two_pow_pos e)
  refine ⟨e, ?_, hlt, hge⟩
  rw [hrank]
  exact unitsAt_mul_add (roundDiv_le hpos hlt.le) (hge.imp_right (le_roundDiv hpos))

/-- The midpoint above a rank decides whether a fraction is rounded past it. -/
theorem lt_nearestRank_iff (hd : 0 < d) : r < nearestRank n d ↔
    (unitsAt r + unitsAt (r + 1)) * d < 2 * n ∨
      ((unitsAt r + unitsAt (r + 1)) * d = 2 * n ∧ r % 2 = 1) := by
  obtain ⟨e, hrank, hlt, hge⟩ := exists_nearestRank_eq hd n
  have hpos : 0 < d * 2 ^ e := Nat.mul_pos hd (Nat.two_pow_pos e)
  have hle : roundDiv n (d * 2 ^ e) ≤ 2 * binade := roundDiv_le hpos hlt.le
  have hlow : e = 0 ∨ binade ≤ roundDiv n (d * 2 ^ e) := hge.imp_right (le_roundDiv hpos)
  rw [hrank]
  by_cases hbelow : e ≠ 0 ∧ r < e * binade + binade
  · -- the steps below are narrower, and the fraction lies past all of them
    have hmid : unitsAt r + unitsAt (r + 1) < 2 * unitsAt (e * binade + binade) := by
      have := unitsAt_strictMono.monotone (show r + 1 ≤ e * binade + binade by omega)
      have := unitsAt_lt_succ r
      omega
    rw [unitsAt_mul_add (by omega) (.inr le_rfl)] at hmid
    have hn : (unitsAt r + unitsAt (r + 1)) * d < 2 * n :=
      calc
        _ < 2 * (binade * 2 ^ e) * d := Nat.mul_lt_mul_of_pos_right hmid hd
        _ = 2 * (binade * (d * 2 ^ e)) := by ring
        _ ≤ 2 * n := Nat.mul_le_mul_left 2 (hge.resolve_left hbelow.1)
    exact iff_of_true (by omega) (.inl hn)
  by_cases habove : e * binade + 2 * binade ≤ r
  · -- the fraction lies below the next wider steps
    have hmid : 2 * unitsAt (e * binade + 2 * binade) < unitsAt r + unitsAt (r + 1) := by
      have := unitsAt_strictMono.monotone habove
      have := unitsAt_lt_succ r
      omega
    rw [unitsAt_mul_add le_rfl (.inr (by omega))] at hmid
    have hn : 2 * n < (unitsAt r + unitsAt (r + 1)) * d :=
      calc
        2 * n < 2 * (2 * binade * (d * 2 ^ e)) := Nat.mul_lt_mul_of_pos_left hlt (by decide)
        _ = 2 * (2 * binade * 2 ^ e) * d := by ring
        _ < _ := Nat.mul_lt_mul_of_pos_right hmid hd
    exact iff_of_false (by omega) (by omega)
  have hr : e * binade ≤ r := by
    rcases Nat.eq_zero_or_pos e with he | he
    · rw [he, Nat.zero_mul]
      exact Nat.zero_le r
    · omega
  obtain ⟨k, rfl⟩ := Nat.exists_eq_add_of_le hr
  have hk : k < 2 * binade := by omega
  have hsteps : e = 0 ∨ binade ≤ k := by omega
  rw [Nat.add_assoc, unitsAt_mul_add hk.le hsteps, unitsAt_mul_add hk (by omega)]
  have hmiddle : (k * 2 ^ e + (k + 1) * 2 ^ e) * d = (2 * k + 1) * (d * 2 ^ e) := by ring
  have heven : (e * binade + k) % 2 = k % 2 := by
    rw [binade]
    omega
  rw [hmiddle, heven, ← lt_roundDiv_iff hpos]
  omega

theorem nearestRank_le (hd : 0 < d) (h : n ≤ unitsAt r * d) : nearestRank n d ≤ r := by
  by_contra hlt
  have hmid : 2 * (unitsAt r * d) < (unitsAt r + unitsAt (r + 1)) * d :=
    calc
      _ = (unitsAt r + unitsAt r) * d := by ring
      _ < _ := Nat.mul_lt_mul_of_pos_right (Nat.add_lt_add_left (unitsAt_lt_succ r) _) hd
  rcases (lt_nearestRank_iff hd).1 (Nat.not_le.1 hlt) with hgt | ⟨heq, -⟩ <;> omega

/-- Expanding a fraction does not change where it is rounded to. -/
theorem nearestRank_mul_right (hd : 0 < d) (hk : 0 < k) :
    nearestRank (n * k) (d * k) = nearestRank n d := by
  refine eq_of_forall_lt_iff fun r => ?_
  rw [lt_nearestRank_iff (Nat.mul_pos hd hk), lt_nearestRank_iff hd, ← Nat.mul_assoc,
    ← Nat.mul_assoc 2, Nat.mul_lt_mul_right hk, Nat.mul_left_inj hk.ne']

/-- A whole number of units is a magnitude if it is a few steps of some width. -/
theorem unitsAt_nearestRank_of_dvd (hdvd : 2 ^ e ∣ n) (hn : n ≤ 2 * binade * 2 ^ e) :
    unitsAt (nearestRank n 1) = n := by
  obtain ⟨s, hunits, -, hge⟩ := exists_unitsAt_nearestRank_eq Nat.one_pos n
  rw [Nat.one_mul] at hunits hge
  have hs : 2 ^ s ∣ n := by
    rcases Nat.lt_or_ge e s with hlt | hle
    · -- the steps are wider, so the number is the power of two at the edge
      have hn' : binade * 2 ^ s ≤ n := hge.resolve_left (by omega)
      have hedge : 2 * binade * 2 ^ e ≤ binade * 2 ^ s :=
        calc
          _ = binade * 2 ^ (e + 1) := by ring
          _ ≤ _ := Nat.mul_le_mul_left _ (Nat.pow_le_pow_right (by decide) hlt)
      exact ⟨binade, by rw [Nat.mul_comm]; exact Nat.le_antisymm (hn.trans hedge) hn'⟩
    · exact (pow_dvd_pow 2 hle).trans hdvd
  obtain ⟨j, rfl⟩ := hs
  rw [hunits, Nat.mul_comm (2 ^ s), roundDiv_mul_self (Nat.two_pow_pos s)]

/-- What is left of a magnitude after another has been taken away as often as it fits is a magnitude
again: a whole number of the narrower steps, and not more of them than one of the two has. -/
theorem unitsAt_nearestRank_mod (a : Nat) {b : Nat} (hb : 0 < b) :
    unitsAt (nearestRank (unitsAt a % unitsAt b) 1) = unitsAt a % unitsAt b := by
  obtain ⟨i, j, rfl, hj, hi⟩ := exists_eq_mul_add a
  obtain ⟨k, l, rfl, hl, hk⟩ := exists_eq_mul_add b
  have hpos : 0 < unitsAt (k * binade + l) := unitsAt_pos hb
  rw [unitsAt_mul_add hl.le hk] at hpos ⊢
  rw [unitsAt_mul_add hj.le hi]
  rcases Nat.le_total i k with hle | hle
  · have hdvd : 2 ^ i ∣ l * 2 ^ k := (pow_dvd_pow 2 hle).mul_left l
    refine unitsAt_nearestRank_of_dvd ((Nat.dvd_mod_iff hdvd).2 (Nat.dvd_mul_left _ j)) ?_
    exact (Nat.mod_le _ _).trans (Nat.mul_le_mul_right _ hj.le)
  · have hdvd : 2 ^ k ∣ j * 2 ^ i := (pow_dvd_pow 2 hle).mul_left j
    refine unitsAt_nearestRank_of_dvd ((Nat.dvd_mod_iff (Nat.dvd_mul_left _ l)).2 hdvd) ?_
    exact (Nat.mod_lt _ hpos).le.trans (Nat.mul_le_mul_right _ hl.le)

/-- Whole multiples of a power of two are rounded to such multiples. -/
theorem two_pow_dvd_unitsAt_nearestRank (h : 2 ^ e ∣ n) : 2 ^ e ∣ unitsAt (nearestRank n 1) := by
  obtain ⟨s, hunits, -, -⟩ := exists_unitsAt_nearestRank_eq Nat.one_pos n
  rw [Nat.one_mul] at hunits
  rw [hunits]
  rcases Nat.le_total e s with hle | hle
  · exact (pow_dvd_pow 2 hle).mul_left _
  · obtain ⟨j, rfl⟩ := (pow_dvd_pow 2 hle).trans h
    rw [Nat.mul_comm (2 ^ s), roundDiv_mul_self (Nat.two_pow_pos s), Nat.mul_comm]
    exact h

/-- A fraction of at least `2 ^ 52` units is off by its `2 ^ 53`rd part at most. -/
theorem abs_unitsAt_nearestRank_sub_le (hd : 0 < d) (hn : binade * d ≤ n) :
    |(unitsAt (nearestRank n d) : ℚ) - n / d| ≤ n / d / 2 ^ 53 := by
  obtain ⟨e, hunits, -, hge⟩ := exists_unitsAt_nearestRank_eq hd n
  have hstep : binade * (d * 2 ^ e) ≤ n := by
    rcases hge with rfl | hge
    · simpa using hn
    · exact hge
  have hpos : 0 < d * 2 ^ e := Nat.mul_pos hd (Nat.two_pow_pos e)
  have herr : (2 : ℚ) * |(roundDiv n (d * 2 ^ e) : ℚ) * (d * 2 ^ e) - n| ≤ d * 2 ^ e := by
    exact_mod_cast abs_roundDiv_mul_sub_le hpos n
  have hstep' : (2 : ℚ) ^ 52 * (d * 2 ^ e) ≤ n := by
    exact_mod_cast hstep
  have hd' : (0 : ℚ) < d := by exact_mod_cast hd
  have hdiff : (unitsAt (nearestRank n d) : ℚ) - n / d =
      ((roundDiv n (d * 2 ^ e) : ℚ) * (d * 2 ^ e) - n) / d := by
    rw [hunits]
    push_cast
    field_simp
  rw [hdiff, abs_div, abs_of_pos hd', div_right_comm, div_le_div_iff_of_pos_right hd',
    le_div_iff₀ (by positivity)]
  linarith

end Binary64

end Reckoner
