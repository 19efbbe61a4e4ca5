import Reckoner.Evaluation.Basic
import Reckoner.Proofs.Blank

/-!
# Numerals as they are written

A numeral is a sign if it has one, digits, and a point with more digits, or none, behind it.  These
are exactly the texts that are read as decimals.
-/

namespace Reckoner

inductive Sign
  | plain | plus | minus
deriving DecidableEq, Repr

def Sign.text : Sign → List Char
  | plain => []
  | plus => ['+']
  | minus => ['-']

structure Numeral where
  sign : Sign
  whole : List Char
  fraction : Option (List Char)
  whole_ne_nil : whole ≠ []
  whole_digits : ∀ c ∈ whole, c.isDigit
  fraction_digits : ∀ f ∈ fraction, ∀ c ∈ f, c.isDigit

namespace Numeral

variable (n : Numeral)

/-- What follows the sign. -/
def body : List Char := n.whole ++ n.fraction.elim [] ('.' :: ·)

def text : List Char := n.sign.text ++ n.body

/-- The number that the numeral writes. -/
def decimal : Decimal :=
  ⟨n.sign = .minus, Decimal.ofDigits (n.whole ++ n.fraction.getD []), (n.fraction.getD []).length⟩

/-- The value nearest to it. -/
def value : Binary64 := n.decimal.toBinary64

/-! ## Its characters -/

theorem of_mem_body {c : Char} (h : c ∈ n.body) : c.isDigit ∨ c = '.' := by
  rcases List.mem_append.1 h with hw | hf
  · exact .inl (n.whole_digits c hw)
  · cases hfr : n.fraction with
    | none => simp [hfr] at hf
    | some f =>
      rw [hfr] at hf
      rcases List.mem_cons.1 hf with rfl | hf
      · exact .inr rfl
      · exact .inl (n.fraction_digits f hfr c hf)

theorem of_mem_text {c : Char} (h : c ∈ n.text) :
    c.isDigit ∨ c = '.' ∨ c = '+' ∨ c = '-' := by
  rcases List.mem_append.1 h with hs | hb
  · cases hsign : n.sign <;> simp_all [Sign.text]
  · rcases n.of_mem_body hb with hd | rfl
    · exact .inl hd
    · exact .inr (.inl rfl)

theorem head_text_ne : ∀ c ∈ n.text.head?, c ≠ '*' ∧ c ≠ '/' := by
  intro c hc
  have hmem := n.of_mem_text (List.mem_of_mem_head? hc)
  constructor <;> rintro rfl <;> exact absurd hmem (by decide)

theorem body_ne_nil : n.body ≠ [] := by simp [body, n.whole_ne_nil]

theorem text_ne_nil : n.text ≠ [] := by simp [text, n.body_ne_nil]

/-- Only the sign is neither a digit nor a point, and nothing stands before it. -/
theorem eq_nil_of_text_eq {p r : List Char} {c : Char} (h : n.text = p ++ c :: r)
    (hc : ¬ (c.isDigit ∨ c = '.')) : p = [] := by
  have hbody : c ∉ n.body := fun hmem => hc (n.of_mem_body hmem)
  cases p with
  | nil => rfl
  | cons d p =>
    refine absurd ?_ hbody
    cases hs : n.sign <;> simp only [text, hs, Sign.text] at h
    · rw [show n.body = d :: p ++ c :: r from h]
      simp
    all_goals
      obtain ⟨-, hb⟩ := List.cons.inj h
      rw [show n.body = p ++ c :: r from hb]
      simp

theorem of_mem_tail_text {c : Char} (h : c ∈ n.text.tail) : c.isDigit ∨ c = '.' := by
  by_contra hc
  obtain ⟨p, r, htail⟩ := List.append_of_mem h
  obtain ⟨d, w, htext⟩ := List.exists_cons_of_ne_nil n.text_ne_nil
  rw [htext, List.tail_cons] at htail
  rw [htail, ← List.cons_append] at htext
  cases n.eq_nil_of_text_eq htext hc

/-- A numeral ends with a digit or a point. -/
theorem of_getLast?_text {c : Char} (h : n.text.getLast? = some c) : c.isDigit ∨ c = '.' := by
  refine n.of_mem_body (List.mem_of_getLast? ?_)
  rw [text, List.getLast?_append_of_ne_nil _ n.body_ne_nil] at h
  exact h

theorem isBlank_of_isDigit {c : Char} (h : c.isDigit) : isBlank c = false := by
  have h9 : c.toNat ≤ 57 ∧ 48 ≤ c.toNat := by
    simp only [Char.isDigit, Bool.and_eq_true, decide_eq_true_eq] at h
    exact ⟨h.2, h.1⟩
  simp only [isBlank, CharClass.contains, CharClass.blank, CharClass.walk]
  rw [if_neg (by omega), if_neg (by omega), if_neg (by omega), if_neg (by omega), if_pos (by omega)]
  rfl

theorem isBlank_of_mem_text {c : Char} (h : c ∈ n.text) : isBlank c = false := by
  rcases n.of_mem_text h with hd | rfl | rfl | rfl
  · exact isBlank_of_isDigit hd
  all_goals decide

theorem trimmed_text : Trimmed n.text :=
  Trimmed.of_ends (fun _ hc => n.isBlank_of_mem_text (List.mem_of_mem_head? hc))
    fun _ hc => n.isBlank_of_mem_text (List.mem_of_getLast? hc)

/-! ## Reading -/

/-- Reading takes exactly the digits before the point, or before the end. -/
theorem readUnsigned?_body (negative : Bool) : Decimal.readUnsigned? negative n.body =
    some ⟨negative, Decimal.ofDigits (n.whole ++ n.fraction.getD []),
      (n.fraction.getD []).length⟩ := by
  have hw : n.whole.isEmpty = false := by simpa using n.whole_ne_nil
  cases hf : n.fraction with
  | none =>
    have htake : n.whole.takeWhile Char.isDigit = n.whole := by simpa using n.whole_digits
    have hdrop : n.whole.dropWhile Char.isDigit = [] := by simpa using n.whole_digits
    simp [Decimal.readUnsigned?, body, hf, htake, hdrop, hw]
  | some f =>
    have hpoint : Char.isDigit '.' = false := by decide
    have hall : f.all Char.isDigit = true := by simpa using n.fraction_digits f hf
    simp only [Decimal.readUnsigned?, body, hf, Option.elim_some, Option.getD_some]
    rw [List.takeWhile_append_of_pos n.whole_digits, List.dropWhile_append_of_pos n.whole_digits]
    simp [hpoint, hall, n.whole_ne_nil]

theorem splitSign_text : Decimal.splitSign n.text = (decide (n.sign = .minus), n.body) := by
  cases hs : n.sign with
  | plus => simp [text, hs, Sign.text, Decimal.splitSign]
  | minus => simp [text, hs, Sign.text, Decimal.splitSign]
  | plain =>
    cases hb : n.body with
    | nil => exact absurd hb n.body_ne_nil
    | cons c b =>
      have hc := n.of_mem_body (show c ∈ n.body by simp [hb])
      have hminus : c ≠ '-' := by rintro rfl; revert hc; decide
      have hplus : c ≠ '+' := by rintro rfl; revert hc; decide
      simp [text, hs, Sign.text, hb, Decimal.splitSign, hminus, hplus]

/-- A written numeral is read as its decimal. -/
theorem read?_text : Decimal.read? n.text = some n.decimal := by
  rw [Decimal.read?, splitSign_text]
  exact n.readUnsigned?_body _

/-- What is read as a decimal is the text of a numeral. -/
theorem exists_of_read? {w : List Char} {d : Decimal} (h : Decimal.read? w = some d) :
    ∃ n : Numeral, n.text = w ∧ n.decimal = d := by
  have unsigned : ∀ (sign : Sign) (rest : List Char),
      Decimal.readUnsigned? (sign = .minus) rest = some d →
        ∃ n : Numeral, n.text = sign.text ++ rest ∧ n.decimal = d := by
    intro sign rest h
    have hrest := List.takeWhile_append_dropWhile (p := Char.isDigit) (l := rest)
    have hdigits : ∀ c ∈ rest.takeWhile Char.isDigit, c.isDigit := fun _ =>
      List.mem_takeWhile_imp
    simp only [Decimal.readUnsigned?] at h
    split at h
    · cases h
    · next hne =>
      have hne : rest.takeWhile Char.isDigit ≠ [] := by simpa using hne
      split at h
      · next hdrop =>
        cases h
        refine ⟨⟨sign, _, none, hne, hdigits, by simp⟩, ?_, by simp [decimal]⟩
        rw [hdrop, List.append_nil] at hrest
        simp [text, body, hrest]
      · next fraction hdrop =>
        split at h
        · next hall =>
          cases h
          refine ⟨⟨sign, _, some fraction, hne, hdigits, by simpa using hall⟩, ?_, rfl⟩
          rw [hdrop] at hrest
          simp [text, body, hrest]
        · cases h
      · cases h
  rw [Decimal.read?] at h
  unfold Decimal.splitSign at h
  split at h
  · exact unsigned .minus _ h
  · exact unsigned .plus _ h
  · exact unsigned .plain _ h

theorem readLiteral_text : readLiteral n.text = .ok n.value := by
  rw [readLiteral, read?_text]
  rfl

end Numeral

theorem readLiteral_eq_ok_iff {w : Fragment} {v : Binary64} :
    readLiteral w = .ok v ↔ ∃ n : Numeral, n.text = w ∧ n.value = v := by
  constructor
  · intro h
    rw [readLiteral] at h
    split at h
    · next d hd =>
      obtain ⟨n, hn, rfl⟩ := Numeral.exists_of_read? hd
      exact ⟨n, hn, Except.ok.inj h⟩
    · cases h
  · rintro ⟨n, rfl, rfl⟩
    exact n.readLiteral_text

theorem literal?_eq_some_iff {w v : Fragment} :
    Fragment.literal? w = some v ↔ v = w ∧ ∃ n : Numeral, n.text = w := by
  rw [Fragment.literal?]
  constructor
  · intro h
    split at h
    · next hsome =>
      obtain ⟨d, hd⟩ := Option.isSome_iff_exists.1 hsome
      obtain ⟨n, hn, -⟩ := Numeral.exists_of_read? hd
      exact ⟨(Option.some.inj h).symm, n, hn⟩
    · cases h
  · rintro ⟨rfl, n, rfl⟩
    simp [n.read?_text]

end Reckoner
