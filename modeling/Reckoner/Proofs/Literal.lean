import Mathlib.Computability.RegularExpressions
import Mathlib.Data.Nat.Digits.Defs
import Mathlib.Tactic.IntervalCases
import Reckoner.Proofs.Nearest
import Reckoner.Proofs.ReadBack

/-!
# Literals

A literal is a text that matches the pattern of numerals from end to end.  Its value is the one nearest
to the number that its digits write, with the sign that is written; as only the number and the sign
count, zeros and marks that do not change them do not change the value.
-/

namespace Reckoner

open Binary64

/-! ## The pattern of numerals -/

/-- One of the characters. -/
def oneOf (chars : List Char) : RegularExpression Char := (chars.map .char).sum

def digitPattern : RegularExpression Char := oneOf "0123456789".toList

/-- An optional sign, digits, and optionally a point with digits behind it or none. -/
def numeralPattern : RegularExpression Char :=
  (1 + oneOf ['+', '-']) * (digitPattern * digitPattern.star) *
    (1 + .char '.' * digitPattern.star)

theorem mem_oneOf {chars w : List Char} : w ∈ (oneOf chars).matches' ↔ ∃ c ∈ chars, w = [c] := by
  induction chars with
  | nil => simp [oneOf]
  | cons c chars ih =>
    have hsum : oneOf (c :: chars) = .char c + oneOf chars := rfl
    have hchar : w ∈ (RegularExpression.char c).matches' ↔ w = [c] := Set.mem_singleton_iff
    rw [hsum, RegularExpression.matches'_add, Language.mem_add, hchar, ih]
    simp

theorem mem_digits_iff {c : Char} : c ∈ "0123456789".toList ↔ c.isDigit := by
  constructor
  · have hall : "0123456789".toList.all Char.isDigit := by decide
    exact List.all_eq_true.1 hall c
  · intro h
    simp only [Char.isDigit, Bool.and_eq_true, decide_eq_true_eq] at h
    have hlow : 48 ≤ c.toNat := h.1
    have hhigh : c.toNat ≤ 57 := h.2
    rw [← Char.ofNat_toNat c]
    interval_cases c.toNat <;> decide

theorem mem_digitPattern {w : List Char} :
    w ∈ digitPattern.matches' ↔ ∃ c, c.isDigit ∧ w = [c] := by
  simp only [digitPattern, mem_oneOf, mem_digits_iff]

theorem mem_star_digitPattern {w : List Char} :
    w ∈ digitPattern.star.matches' ↔ ∀ c ∈ w, c.isDigit := by
  rw [RegularExpression.matches'_star, Language.mem_kstar]
  constructor
  · rintro ⟨parts, rfl, hparts⟩ c hc
    obtain ⟨part, hpart, hc⟩ := List.mem_flatten.1 hc
    obtain ⟨d, hd, rfl⟩ := mem_digitPattern.1 (hparts part hpart)
    rwa [List.mem_singleton.1 hc]
  · intro h
    refine ⟨w.map ([·]), ?_, fun part hpart => ?_⟩
    · rw [← List.flatMap_def, List.flatMap_singleton']
    obtain ⟨c, hc, rfl⟩ := List.mem_map.1 hpart
    exact mem_digitPattern.2 ⟨c, h c hc, rfl⟩

theorem mem_signPattern {w : List Char} :
    w ∈ (1 + oneOf ['+', '-']).matches' ↔ ∃ sign : Sign, sign.text = w := by
  rw [RegularExpression.matches'_add, Language.mem_add, mem_oneOf]
  constructor
  · rintro (h | ⟨c, hc, rfl⟩)
    · exact ⟨.plain, ((Language.mem_one _).1 h).symm⟩
    · rcases List.mem_cons.1 hc with rfl | hc
      · exact ⟨.plus, rfl⟩
      · rw [List.mem_singleton.1 hc]
        exact ⟨.minus, rfl⟩
  · rintro ⟨sign, rfl⟩
    cases sign with
    | plain => exact .inl ((Language.mem_one _).2 rfl)
    | plus => exact .inr ⟨'+', by simp, rfl⟩
    | minus => exact .inr ⟨'-', by simp, rfl⟩

theorem mem_wholePattern {w : List Char} :
    w ∈ (digitPattern * digitPattern.star).matches' ↔ w ≠ [] ∧ ∀ c ∈ w, c.isDigit := by
  rw [RegularExpression.matches'_mul, Language.mem_mul]
  constructor
  · rintro ⟨u, hu, v, hv, rfl⟩
    obtain ⟨c, hc, rfl⟩ := mem_digitPattern.1 hu
    exact ⟨by simp, List.forall_mem_cons.2 ⟨hc, mem_star_digitPattern.1 hv⟩⟩
  · rintro ⟨hne, hw⟩
    obtain ⟨c, v, rfl⟩ := List.exists_cons_of_ne_nil hne
    obtain ⟨hc, hv⟩ := List.forall_mem_cons.1 hw
    exact ⟨[c], mem_digitPattern.2 ⟨c, hc, rfl⟩, v, mem_star_digitPattern.2 hv, rfl⟩

theorem mem_fractionPattern {w : List Char} :
    w ∈ (1 + .char '.' * digitPattern.star : RegularExpression Char).matches' ↔
      ∃ fraction : Option (List Char), (∀ f ∈ fraction, ∀ c ∈ f, c.isDigit) ∧
        fraction.elim [] ('.' :: ·) = w := by
  rw [RegularExpression.matches'_add, Language.mem_add, RegularExpression.matches'_mul,
    Language.mem_mul]
  constructor
  · rintro (h | ⟨u, hu, f, hf, rfl⟩)
    · exact ⟨none, by simp, ((Language.mem_one _).1 h).symm⟩
    · obtain rfl : u = ['.'] := hu
      refine ⟨some f, ?_, rfl⟩
      rintro _ ⟨⟩
      exact mem_star_digitPattern.1 hf
  · rintro ⟨fraction, hdigits, rfl⟩
    cases fraction with
    | none => exact .inl ((Language.mem_one _).2 rfl)
    | some f => exact .inr ⟨['.'], rfl, f, mem_star_digitPattern.2 (hdigits f rfl), rfl⟩

/-- The pattern is that of the texts of numerals. -/
theorem mem_numeralPattern {w : List Char} :
    w ∈ numeralPattern.matches' ↔ ∃ n : Numeral, n.text = w := by
  rw [numeralPattern, RegularExpression.matches'_mul, RegularExpression.matches'_mul,
    Language.mem_mul]
  constructor
  · rintro ⟨_, hfront, v, hv, rfl⟩
    obtain ⟨s, hs, u, hu, rfl⟩ := Language.mem_mul.1 hfront
    obtain ⟨sign, rfl⟩ := mem_signPattern.1 hs
    obtain ⟨hne, hwhole⟩ := mem_wholePattern.1 hu
    obtain ⟨fraction, hfraction, rfl⟩ := mem_fractionPattern.1 hv
    exact ⟨⟨sign, u, fraction, hne, hwhole, hfraction⟩, by simp [Numeral.text, Numeral.body]⟩
  · rintro ⟨n, rfl⟩
    refine ⟨n.sign.text ++ n.whole, Language.mem_mul.2 ⟨_, mem_signPattern.2 ⟨n.sign, rfl⟩, _,
      mem_wholePattern.2 ⟨n.whole_ne_nil, n.whole_digits⟩, rfl⟩, _,
      mem_fractionPattern.2 ⟨n.fraction, n.fraction_digits, rfl⟩, ?_⟩
    simp [Numeral.text, Numeral.body]

/-! ## The number that is written -/

/-- The number of some digits: the last one counts ones, the one before it tens, and so on. -/
def digitsNumber (digits : List Char) : ℕ :=
  Nat.ofDigits 10 (digits.reverse.map fun c => c.toNat - '0'.toNat)

theorem ofDigits_eq_digitsNumber (digits : List Char) :
    Decimal.ofDigits digits = digitsNumber digits := by
  induction digits using List.reverseRecOn with
  | nil => rfl
  | append_singleton digits c ih =>
    rw [Decimal.ofDigits_append, ih, digitsNumber, digitsNumber, List.reverse_append,
      List.reverse_singleton, List.singleton_append, List.map_cons, Nat.ofDigits_cons]
    simp [Decimal.ofDigits]
    omega

namespace Numeral

variable (n : Numeral)

/-- The digits behind the point. -/
def fractionDigits : List Char := n.fraction.getD []

/-- The number that the numeral writes, exactly. -/
def number : ℚ :=
  (if n.sign = .minus then -1 else 1) *
    (digitsNumber n.whole + digitsNumber n.fractionDigits / 10 ^ n.fractionDigits.length)

theorem number_eq : n.number =
    signedUnits (n.sign = .minus) n.decimal.coefficient / 10 ^ n.decimal.places := by
  have hpow : (10 : ℚ) ^ n.fractionDigits.length ≠ 0 := by positivity
  have hparts : (digitsNumber n.whole + digitsNumber n.fractionDigits / 10 ^ n.fractionDigits.length
      : ℚ) = n.decimal.coefficient / 10 ^ n.decimal.places := by
    have hcoefficient : n.decimal.coefficient =
        digitsNumber n.whole * 10 ^ n.fractionDigits.length + digitsNumber n.fractionDigits := by
      rw [decimal, Decimal.ofDigits_append, ofDigits_eq_digitsNumber, ofDigits_eq_digitsNumber]
      rfl
    have hplaces : n.decimal.places = n.fractionDigits.length := rfl
    rw [hcoefficient, hplaces, eq_div_iff hpow]
    push_cast
    field_simp
  rw [number, hparts, signedUnits_eq_mul, mul_comm, mul_div_right_comm]
  by_cases h : n.sign = .minus <;> simp [h, signedUnits]

/-! ## The value nearest to it -/

theorem value_eq : n.value = ofRatio (n.sign = .minus) (n.decimal.coefficient * unitsPerOne)
    (10 ^ n.decimal.places) := rfl

theorem isNearest_value : n.value.IsNearest n.number := by
  have hpow : 0 < 10 ^ n.decimal.places := Nat.pow_pos (by decide)
  have h := isNearest_ofRatio hpow (n.sign = .minus) (n.decimal.coefficient * unitsPerOne)
  rwa [div_mul_eq_mul_div, signedUnits_mul_unitsPerOne, Nat.cast_pow, Nat.cast_ofNat,
    ← number_eq] at h

theorem isSigned_value : n.value.isSigned = decide (n.text.head? = some '-') := by
  have hhead : n.text.head? = some '-' ↔ n.sign = .minus := by
    constructor
    · intro h
      cases hs : n.sign with
      | minus => rfl
      | plus => simp [text, hs, Sign.text] at h
      | plain =>
        have hbody : '-' ∈ n.body := List.mem_of_mem_head? (by simpa [text, hs, Sign.text] using h)
        exact absurd (n.of_mem_body hbody) (by decide)
    · intro h
      simp [text, h, Sign.text]
  rw [value_eq, isSigned_ofRatio, decide_eq_decide, hhead]

/-- A numeral overflows from the midpoint past the greatest finite value on. -/
theorem exists_value_eq_inf_iff :
    (∃ s, n.value = .inf s) ↔ (2 ^ 1024 - 2 ^ 970 : ℚ) ≤ |n.number| := by
  have habs : ∀ s (c : Nat), |(signedUnits s c : ℚ)| = c := fun s c => by
    rw [← Int.cast_abs, Int.abs_eq_natAbs, natAbs_signedUnits, Int.cast_natCast]
  have hunits : ((n.decimal.coefficient * unitsPerOne : Nat) : ℚ) * unitSize =
      n.decimal.coefficient := by
    rw [Nat.cast_mul, mul_assoc, unitsPerOne_mul_unitSize, mul_one]
  have hpow : 0 < 10 ^ n.decimal.places := Nat.pow_pos (by decide)
  rw [value_eq, exists_ofRatio_eq_inf_iff hpow, div_mul_eq_mul_div, hunits, number_eq, abs_div, habs,
    Nat.cast_pow, Nat.cast_ofNat, abs_of_pos (by positivity)]

variable {n} {m : Numeral}

/-- Only the number and the minus sign count. -/
theorem value_eq_of_number_eq (hnumber : m.number = n.number)
    (hsign : m.sign = .minus ↔ n.sign = .minus) : m.value = n.value := by
  refine m.isNearest_value.eq (hnumber ▸ n.isNearest_value) ?_
  rw [value_eq, value_eq, isSigned_ofRatio, isSigned_ofRatio, decide_eq_decide, hsign]

theorem evaluate_text_eq (hnumber : m.number = n.number)
    (hsign : m.sign = .minus ↔ n.sign = .minus) (limit : Nat) :
    evaluate m.text limit = .ok n.value := by
  rw [m.evaluate_text, value_eq_of_number_eq hnumber hsign]

/-! ## Zeros and marks that do not count -/

theorem isDigit_of_mem_zeros {k : Nat} {c : Char} (h : c ∈ List.replicate k '0') : c.isDigit := by
  rw [List.eq_of_mem_replicate h]
  rfl

theorem fractionDigits_digits : ∀ c ∈ n.fractionDigits, c.isDigit := by
  cases h : n.fraction with
  | none => simp [fractionDigits, h]
  | some f => simpa [fractionDigits, h] using n.fraction_digits f h

variable (n) (k : Nat)

/-- The numeral with zeros before its digits. -/
def padWhole : Numeral where
  sign := n.sign
  whole := List.replicate k '0' ++ n.whole
  fraction := n.fraction
  whole_ne_nil := by simp [n.whole_ne_nil]
  whole_digits := List.forall_mem_append.2 ⟨fun _ => isDigit_of_mem_zeros, n.whole_digits⟩
  fraction_digits := n.fraction_digits

/-- The numeral with zeros behind its digits, and a point if it has none. -/
def padFraction : Numeral where
  sign := n.sign
  whole := n.whole
  fraction := some (n.fractionDigits ++ List.replicate k '0')
  whole_ne_nil := n.whole_ne_nil
  whole_digits := n.whole_digits
  fraction_digits := by
    rintro _ ⟨⟩
    exact List.forall_mem_append.2 ⟨fractionDigits_digits, fun _ => isDigit_of_mem_zeros⟩

theorem digitsNumber_zeros_append (digits : List Char) :
    digitsNumber (List.replicate k '0' ++ digits) = digitsNumber digits := by
  rw [← ofDigits_eq_digitsNumber, Decimal.ofDigits_append, Decimal.ofDigits_replicate_zero,
    Nat.zero_mul, Nat.zero_add, ofDigits_eq_digitsNumber]

theorem digitsNumber_append_zeros (digits : List Char) :
    digitsNumber (digits ++ List.replicate k '0') = digitsNumber digits * 10 ^ k := by
  rw [← ofDigits_eq_digitsNumber, Decimal.ofDigits_append, Decimal.ofDigits_replicate_zero,
    List.length_replicate, Nat.add_zero, ofDigits_eq_digitsNumber]

theorem number_padWhole : (n.padWhole k).number = n.number := by
  have hwhole : (n.padWhole k).whole = List.replicate k '0' ++ n.whole := rfl
  rw [number, hwhole, digitsNumber_zeros_append]
  rfl

theorem number_padFraction : (n.padFraction k).number = n.number := by
  have hdigits : (n.padFraction k).fractionDigits = n.fractionDigits ++ List.replicate k '0' := rfl
  have hten : (10 : ℚ) ^ k ≠ 0 := by positivity
  rw [number, hdigits, digitsNumber_append_zeros, List.length_append, List.length_replicate,
    Nat.cast_mul, Nat.cast_pow, Nat.cast_ofNat, pow_add, mul_div_mul_right _ _ hten]
  rfl

theorem number_plus (h : n.sign = .plain) : { n with sign := .plus }.number = n.number := by
  simp [number, fractionDigits, h]

theorem text_padFraction : (n.padFraction k).text =
    n.text ++ ((if n.fraction = none then ['.'] else []) ++ List.replicate k '0') := by
  cases h : n.fraction <;> simp [text, body, padFraction, fractionDigits, h]

end Numeral

/-- **Literals.** A text is taken for a literal if and only if the pattern of numerals matches all of
it.  At every limit it evaluates to the value nearest to the number that is written, which is an
infinity from the midpoint past the greatest finite value on, with the sign bit set exactly if the
text starts with a minus sign.  So only the number and the minus sign count: leading zeros, a point
and zeros behind the digits, and a plus sign change nothing. -/
theorem literal?_and_evaluate_literal :
    (∀ w v : Fragment, w.literal? = some v ↔ v = w ∧ w ∈ numeralPattern.matches') ∧
    (∀ w : Fragment, w ∈ numeralPattern.matches' ↔ ∃ n : Numeral, n.text = w) ∧
    ∀ (n : Numeral) (limit : Nat), ∃ v, evaluate n.text limit = .ok v ∧ v.IsNearest n.number ∧
      v.isSigned = decide (n.text.head? = some '-') ∧
      ((∃ s, v = .inf s) ↔ (2 ^ 1024 - 2 ^ 970 : ℚ) ≤ |n.number|) ∧
      (∀ m : Numeral, m.number = n.number → (m.sign = .minus ↔ n.sign = .minus) →
        evaluate m.text limit = .ok v) ∧
      ∀ k, evaluate (n.sign.text ++ (List.replicate k '0' ++ n.body)) limit = .ok v ∧
        (n.fraction = none → evaluate (n.text ++ '.' :: List.replicate k '0') limit = .ok v) ∧
        (n.fraction ≠ none → evaluate (n.text ++ List.replicate k '0') limit = .ok v) ∧
        (n.sign = .plain → evaluate ('+' :: n.text) limit = .ok v) := by
  refine ⟨fun w v => ?_, fun w => mem_numeralPattern, fun n limit => ⟨n.value, n.evaluate_text limit,
    n.isNearest_value, n.isSigned_value, n.exists_value_eq_inf_iff,
    fun m hnumber hsign => Numeral.evaluate_text_eq hnumber hsign limit,
    fun k => ⟨?_, fun h => ?_, fun h => ?_, fun h => ?_⟩⟩⟩
  · rw [literal?_eq_some_iff, mem_numeralPattern]
  · have hpad := Numeral.evaluate_text_eq (n.number_padWhole k) Iff.rfl limit
    simpa [Numeral.text, Numeral.body, Numeral.padWhole] using hpad
  · have hpad := Numeral.evaluate_text_eq (n.number_padFraction k) Iff.rfl limit
    rwa [n.text_padFraction, if_pos h] at hpad
  · have hpad := Numeral.evaluate_text_eq (n.number_padFraction k) Iff.rfl limit
    rwa [n.text_padFraction, if_neg h] at hpad
  · have hplus := Numeral.evaluate_text_eq (n.number_plus h) (by simp [h]) limit
    have htext : { n with sign := .plus }.text = '+' :: n.text := by
      simp [Numeral.text, Numeral.body, h, Sign.text]
    rwa [htext] at hplus

end Reckoner
