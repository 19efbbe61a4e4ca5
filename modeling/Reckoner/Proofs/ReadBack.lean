import Reckoner.Decimal.Positional
import Reckoner.Proofs.Derivation
import Reckoner.Proofs.Rounding

/-!
# Printed values read back

The digits that are printed for a value lie between the midpoints to its neighbours, so they round
to the value, and they are written as a numeral. A finite value is therefore what its own text
evaluates to. The other values are written as words that no rule reads.
-/

namespace Reckoner

open Binary64

namespace Decimal

/-! ## Digits -/

theorem ofDigits_eq_ofDigitChars (digits : List Char) :
    ofDigits digits = Nat.ofDigitChars 10 digits 0 :=
  Nat.ofDigitChars_eq_foldl.symm

theorem ofDigits_toDigits (n : Nat) : ofDigits (Nat.toDigits 10 n) = n := by
  rw [ofDigits_eq_ofDigitChars, Nat.ofDigitChars_ten_toDigits]

theorem ofDigits_append (digits digits' : List Char) :
    ofDigits (digits ++ digits') = ofDigits digits * 10 ^ digits'.length + ofDigits digits' := by
  simp only [ofDigits_eq_ofDigitChars]
  rw [Nat.ofDigitChars_append, Nat.ofDigitChars_eq_ofDigitChars_zero, Nat.mul_comm]

theorem ofDigits_replicate_zero (k : Nat) : ofDigits (List.replicate k '0') = 0 := by
  rw [ofDigits_eq_ofDigitChars, Nat.ofDigitChars_replicate_zero, Nat.mul_zero]

/-- The digits of a fraction, with the zeros that are left out behind them. -/
theorem exists_fractionDigits_append {grains : Nat} (h : grains < grainsPerOne) : ∃ zeros,
    (fractionDigits grains).length + zeros = 1074 ∧
      ofDigits (fractionDigits grains) * 10 ^ zeros = grains := by
  have hlen : (Nat.toDigits 10 grains).length ≤ 1074 :=
    (Nat.length_toDigits_le_iff (by decide) (by decide)).2 h
  let padded :=
    List.replicate (1074 - (Nat.toDigits 10 grains).length) '0' ++ Nat.toDigits 10 grains
  have hzeros : padded.rtakeWhile (· == '0') =
      List.replicate (padded.rtakeWhile (· == '0')).length '0' :=
    List.eq_replicate_of_mem fun c hc => by simpa using List.mem_rtakeWhile_imp hc
  have hsplit : fractionDigits grains ++ padded.rtakeWhile (· == '0') = padded :=
    List.rdropWhile_append_rtakeWhile
  refine ⟨(padded.rtakeWhile (· == '0')).length, ?_, ?_⟩
  · rw [← List.length_append, hsplit]
    simp [padded, hlen]
  · have hvalue := congrArg ofDigits hsplit
    rw [ofDigits_append, hzeros, ofDigits_replicate_zero, List.length_replicate] at hvalue
    simpa [padded, ofDigits_append, ofDigits_replicate_zero, ofDigits_toDigits] using hvalue

theorem isDigit_of_mem_fractionDigits {grains : Nat} {c : Char} (h : c ∈ fractionDigits grains) :
    c.isDigit := by
  have hpadded := List.mem_reverse.1 ((List.dropWhile_suffix _).subset (List.mem_reverse.1 h))
  rcases List.mem_append.1 hpadded with hzero | hdigit
  · rw [List.eq_of_mem_replicate hzero]
    decide
  · exact Nat.isDigit_of_mem_toDigits (by decide) (by decide) hdigit

/-! ## The numeral of a number of grains -/

/-- A number of grains is written as a numeral, whose digits lack only zeros at the end. -/
theorem exists_numeral_positional (sign : Sign) (grains : Nat) : ∃ (n : Numeral) (zeros : Nat),
    n.text = sign.text ++ positional grains ∧ n.sign = sign ∧
      n.decimal.places + zeros = 1074 ∧ n.decimal.coefficient * 10 ^ zeros = grains := by
  have hdigits : ∀ c ∈ Nat.toDigits 10 (grains / grainsPerOne), c.isDigit := fun c =>
    Nat.isDigit_of_mem_toDigits (by decide) (by decide)
  have hdiv : grains / grainsPerOne * 10 ^ 1074 + grains % grainsPerOne = grains :=
    Nat.div_add_mod' grains grainsPerOne
  by_cases hwhole : grains % grainsPerOne = 0
  · refine ⟨⟨sign, _, none, Nat.toDigits_ne_nil, hdigits, by simp⟩, 1074, ?_, rfl, ?_, ?_⟩
    · rw [positional, if_pos hwhole]
      simp [Numeral.text, Numeral.body]
    · simp [Numeral.decimal]
    · rw [hwhole, Nat.add_zero] at hdiv
      simpa [Numeral.decimal, ofDigits_toDigits] using hdiv
  · have hlt : grains % grainsPerOne < grainsPerOne :=
      Nat.mod_lt _ (Nat.pow_pos (by decide))
    obtain ⟨zeros, hlen, hvalue⟩ := exists_fractionDigits_append hlt
    refine ⟨⟨sign, _, some (fractionDigits (grains % grainsPerOne)), Nat.toDigits_ne_nil, hdigits,
      ?_⟩, zeros, ?_, rfl, hlen, ?_⟩
    · rintro _ ⟨⟩ c
      exact isDigit_of_mem_fractionDigits
    · rw [positional, if_neg hwhole]
      simp [Numeral.text, Numeral.body]
    · calc
        _ = (grains / grainsPerOne * 10 ^ (fractionDigits (grains % grainsPerOne)).length +
              ofDigits (fractionDigits (grains % grainsPerOne))) * 10 ^ zeros := by
            rw [Numeral.decimal, Option.getD_some, ofDigits_append, ofDigits_toDigits]
        _ = grains / grainsPerOne * 10 ^ ((fractionDigits (grains % grainsPerOne)).length + zeros) +
              ofDigits (fractionDigits (grains % grainsPerOne)) * 10 ^ zeros := by
            rw [Nat.add_mul, Nat.mul_assoc, ← Nat.pow_add]
        _ = grains := by rw [hlen, hvalue, hdiv]

/-! ## Rounding -/

variable {r grains : Nat}

theorem grainsPerUnit_pos : 0 < grainsPerUnit := Nat.pow_pos (by decide)

theorem nearestRank_of_roundsTo (hr : 0 < r) (h : roundsTo r grains) :
    nearestRank grains grainsPerUnit = r := by
  obtain ⟨k, rfl⟩ : ∃ k, r = k + 1 := ⟨r - 1, by omega⟩
  have hbelow := @lt_nearestRank_iff grains grainsPerUnit k grainsPerUnit_pos
  have habove := @lt_nearestRank_iff grains grainsPerUnit (k + 1) grainsPerUnit_pos
  simp only [roundsTo, Nat.add_sub_cancel] at h
  generalize nearestRank grains grainsPerUnit = m at hbelow habove ⊢
  generalize (unitsAt k + unitsAt (k + 1)) * grainsPerUnit = below at h hbelow
  generalize (unitsAt (k + 1) + unitsAt (k + 1 + 1)) * grainsPerUnit = above at h habove
  split at h
  all_goals
    simp only [Bool.and_eq_true, decide_eq_true_eq] at h
    omega

theorem roundsTo_exact (hr : 0 < r) : roundsTo r (unitsAt r * grainsPerUnit) := by
  obtain ⟨k, rfl⟩ : ∃ k, r = k + 1 := ⟨r - 1, by omega⟩
  have hbelow := Nat.mul_lt_mul_of_pos_right
    (show unitsAt k + unitsAt (k + 1) < 2 * unitsAt (k + 1) by have := unitsAt_lt_succ k; omega)
    grainsPerUnit_pos
  have habove := Nat.mul_lt_mul_of_pos_right
    (show 2 * unitsAt (k + 1) < unitsAt (k + 1) + unitsAt (k + 1 + 1) by
      have := unitsAt_lt_succ (k + 1); omega)
    grainsPerUnit_pos
  rw [Nat.mul_assoc] at hbelow habove
  simp only [roundsTo, Nat.add_sub_cancel]
  split
  all_goals
    rw [Bool.and_eq_true, decide_eq_true_eq, decide_eq_true_eq]
  · exact ⟨hbelow.le, habove.le⟩
  · exact ⟨hbelow, habove⟩

theorem roundsTo_of_onGrid? {exact j : Nat} (h : onGrid? r exact j = some grains) :
    roundsTo r grains := by
  simp only [onGrid?] at h
  split at h
  all_goals grind

theorem roundsTo_shortestFrom {exact : Nat} (h : roundsTo r exact) (j : Nat) :
    roundsTo r (shortestFrom r exact j) := by
  induction j with
  | zero => exact h
  | succ j ih =>
    rw [shortestFrom]
    split
    · next hgrid => exact roundsTo_of_onGrid? hgrid
    · exact ih

/-- The digits that are printed for a rank round to it. -/
theorem nearestRank_shortestGrains (r : Nat) :
    nearestRank (shortestGrains r) grainsPerUnit = r := by
  rcases Nat.eq_zero_or_pos r with rfl | hr
  · exact Nat.le_zero.1 (nearestRank_le grainsPerUnit_pos (Nat.zero_le _))
  · refine nearestRank_of_roundsTo hr ?_
    rw [shortestGrains, if_neg hr.ne']
    exact roundsTo_shortestFrom (roundsTo_exact hr) _

theorem pow_ten_eq (k : Nat) : 10 ^ k = Nat.pow 5 k * 1 <<< k := by
  rw [Nat.shiftLeft_eq, Nat.one_mul, Nat.pow_eq, ← Nat.mul_pow]

/-- The value of a decimal, by the number of its grains. -/
theorem toBinary64_eq {d : Decimal} {zeros : Nat} (hplaces : d.places + zeros = 1074)
    (hgrains : d.coefficient * 10 ^ zeros = grains) :
    d.toBinary64 = ofRank d.negative (nearestRank grains grainsPerUnit) := by
  have hten : ∀ k : Nat, 0 < 10 ^ k := fun k => Nat.pow_pos (by decide)
  have hexpand : 10 ^ d.places * 10 ^ zeros = grainsPerUnit * unitsPerOne := by
    rw [← Nat.pow_add, hplaces, pow_ten_eq]
  change ofRank d.negative (nearestRank (d.coefficient * unitsPerOne) (10 ^ d.places)) = _
  rw [← nearestRank_mul_right (hten d.places) (hten zeros), Nat.mul_right_comm, hgrains, hexpand,
    nearestRank_mul_right grainsPerUnit_pos unitsPerOne_pos]

end Decimal

/-! ## Values and their texts -/

namespace Binary64

/-- Neither an infinity nor NaN. -/
def isFinite : Binary64 → Bool
  | finite _ _ => true
  | _ => false

/-- No two encodings spell one finite value. -/
theorem toBits_ofBits {bits : UInt64} (h : (ofBits bits).isFinite) :
    (ofBits bits).toBits = bits := by
  have hlt := bits.toNat_lt
  have hsplit : signWeight * (decide (signWeight ≤ bits.toNat)).toNat + bits.toNat % signWeight =
      bits.toNat := by
    simp only [signWeight]
    by_cases hsign : 0x8000000000000000 ≤ bits.toNat
    all_goals
      simp [hsign]
      omega
  rw [ofBits] at h ⊢
  split at h
  · cases h
  · next hnan =>
    rw [if_neg hnan]
    rw [ofRank] at h ⊢
    split at h
    · next hrank =>
      rw [dif_pos hrank, toBits, hsplit, UInt64.ofNat_toNat]
    · cases h

/-- The text of a finite value is a numeral, and the value nearest to that is the value itself. -/
theorem exists_numeral_toChars {v : Binary64} (h : v.isFinite) :
    ∃ n : Numeral, n.text = v.toChars ∧ n.value = v := by
  rcases v with _ | _ | ⟨negative, rank⟩
  · cases h
  · cases h
  obtain ⟨n, zeros, htext, hsign, hplaces, hgrains⟩ := Decimal.exists_numeral_positional
    (if negative then .minus else .plain) (Decimal.shortestGrains rank.val)
  refine ⟨n, ?_, ?_⟩
  · cases negative <;> exact htext
  · have hnegative : n.decimal.negative = negative := by
      cases negative <;> simp [Numeral.decimal, hsign]
    rw [Numeral.value, Decimal.toBinary64_eq hplaces hgrains, Decimal.nearestRank_shortestGrains,
      hnegative, ofRank_val]

/-- No rule reads the text of an infinity or of NaN. A minus sign before it is taken for an
operator that has nothing on its left. -/
theorem evaluate_toChars_of_not_isFinite {v : Binary64} (h : v.isFinite = false) {limit : Nat}
    (hlimit : 1 ≤ limit) : evaluate v.toChars limit =
      .error (.noMatchingRule (if v.isSigned then [] else v.toChars)) := by
  rcases v with _ | negative | _
  · rw [evaluate, trace, run_of_classify_eq_none (Nat.zero_le _) (by decide)]
    rfl
  · cases negative
    · rw [evaluate, trace, run_of_classify_eq_none (Nat.zero_le _) (by decide)]
      rfl
    · have hminus : Fragment.classify (trim (inf true).toChars) =
          some (.binary [] .sub ['i', 'n', 'f']) := by decide
      have hleft : run limit 1 [] = .fail (.noMatchingRule []) :=
        run_of_classify_eq_none hlimit (by decide)
      have hpart : (runCapture limit 0 (.binary [] .sub ['i', 'n', 'f'])).result =
          .error (.noMatchingRule []) := by
        rw [runCapture, Traced.result_bind_eq_error_iff, hleft]
        exact .inl rfl
      rw [evaluate, trace, run_of_classify (Nat.zero_le _) hminus]
      exact hpart
  · cases h

theorem evaluate_toChars_ne_ok {v : Binary64} (h : v.isFinite = false) (limit : Nat)
    (x : Binary64) : evaluate v.toChars limit ≠ .ok x := by
  intro hx
  obtain ⟨height, hle, d⟩ := result_run_eq_ok_iff.1 hx
  have hmore : evaluate v.toChars (limit + 1) = .ok x :=
    result_run_eq_ok_iff.2 ⟨height, by omega, d⟩
  rw [evaluate_toChars_of_not_isFinite h (Nat.succ_pos limit)] at hmore
  cases hmore

end Binary64

/-- **Printing and reading.** The text of a finite value is a literal that evaluates to the value
at every limit, so to print what a text evaluates to is to print it for good. The text of an
infinity or of NaN is never evaluated; it fails as one that no rule matches. -/
theorem evaluate_toChars :
    (∀ v : Binary64, v.isFinite → Fragment.literal? v.toChars = some v.toChars ∧
      ∀ limit, evaluate v.toChars limit = .ok v) ∧
    (∀ bits : UInt64, (ofBits bits).isFinite →
      ∀ limit, (evaluate (ofBits bits).toChars limit).map toBits = .ok bits) ∧
    (∀ text limit (v : Binary64), evaluate text limit = .ok v → v.isFinite →
      ∀ limit', (evaluate v.toChars limit').map toChars = .ok v.toChars) ∧
    ∀ v : Binary64, v.isFinite = false →
      (∀ limit, 1 ≤ limit → evaluate v.toChars limit =
        .error (.noMatchingRule (if v.isSigned then [] else v.toChars))) ∧
      ∀ limit x, evaluate v.toChars limit ≠ .ok x := by
  have hread : ∀ v : Binary64, v.isFinite → ∀ limit, evaluate v.toChars limit = .ok v := by
    intro v hv limit
    obtain ⟨n, htext, hvalue⟩ := exists_numeral_toChars hv
    rw [← htext, n.evaluate_text, hvalue]
  refine ⟨fun v hv => ⟨?_, hread v hv⟩, fun bits hv limit => ?_, fun _ _ v _ hv limit' => ?_,
    fun v hv => ⟨fun _ => evaluate_toChars_of_not_isFinite hv, evaluate_toChars_ne_ok hv⟩⟩
  · obtain ⟨n, htext, -⟩ := exists_numeral_toChars hv
    exact literal?_eq_some_iff.2 ⟨rfl, n, htext⟩
  · rw [hread _ hv limit, Except.map, toBits_ofBits hv]
  · rw [hread v hv limit']
    rfl

end Reckoner
