import Reckoner.Proofs.Flat

/-!
# Parentheses around an operand

Parentheses do not keep the search for operators out.  An expression in parentheses can be an
operand only if the search does not stop inside it before it gets to the operator beside it; where
it does stop inside, the cut leaves a parenthesis open and there is no value at any limit.
-/

namespace Reckoner

open Fragment

/-! ## Operands around an operator -/

section Operands

variable {A B s t : Fragment} {op : Operator} {a b : Binary64} {i j limit : Nat}

/-- Operands around an operator have the value of the operator if nothing stops the search before
it. -/
theorem evaluate_operands (hA : IsOperand A) (hB : IsOperand B) (hs : Blanks s) (ht : Blanks t)
    (left : Derives A a i) (right : Derives B b j)
    (hgroup : ¬ IsGroup (A ++ s ++ op.symbol ++ t ++ B))
    (hcall : ¬ IsCall (A ++ s ++ op.symbol ++ t ++ B))
    (hearlier : ∀ op' : Operator, op'.rank < op.rank →
      ¬ op'.OccursIn (A ++ s ++ op.symbol ++ t ++ B))
    (hfirst : ¬ op.OccursIn A) (hle : 1 + max i j ≤ limit) :
    evaluate (A ++ s ++ op.symbol ++ t ++ B) limit = .ok (op.apply a b) := by
  refine result_run_eq_ok_iff.2 ⟨1 + max i j, by omega, ?_⟩
  rw [trimmed_operands hA hB]
  exact .binary rfl hs ht hA.trimmed hB.trimmed left right hgroup hcall hearlier hfirst

/-- If the search stops elsewhere, there is no value. -/
theorem exists_error_operands (hA : IsOperand A) (hB : IsOperand B) (hs : Blanks s) (ht : Blanks t)
    (h : (∃ op' : Operator, op'.rank < op.rank ∧ op'.OccursIn (A ++ s ++ op.symbol ++ t ++ B)) ∨
      op.OccursIn A) (limit : Nat) :
    ∃ error, evaluate (A ++ s ++ op.symbol ++ t ++ B) limit = .error error := by
  cases hv : evaluate (A ++ s ++ op.symbol ++ t ++ B) limit with
  | error error => exact ⟨error, rfl⟩
  | ok v =>
    obtain ⟨k, -, d⟩ := result_run_eq_ok_iff.1 hv
    rw [trimmed_operands hA hB] at d
    obtain ⟨-, hearlier, hfirst⟩ := exists_of_derives hA hB hs ht d
    rcases h with ⟨op', hrank, hoccurs⟩ | hoccurs
    · exact absurd hoccurs (hearlier op' hrank)
    · exact absurd hoccurs hfirst

end Operands

/-! ## A numeral and a group -/

section Grouped

variable {e s t : Fragment} {op op' : Operator} (n : Unsigned)

theorem occursIn_right_iff (hs : Blanks s) (ht : Blanks t) (hne : op' ≠ op) :
    op'.OccursIn (n.val.text ++ s ++ op.symbol ++ t ++ '(' :: (e ++ [')'])) ↔ op'.OccursIn e := by
  have hbefore : ¬ op'.OccursIn (n.val.text ++ s ++ op.symbol ++ t) := fun h => by
    rw [List.append_assoc _ op.symbol] at h
    exact hne (Operator.eq_of_occursIn (Flat.not_mem_symbolChars n .nil hs)
      (Operator.not_mem_symbolChars_of_blanks ht) h)
  have hbehind : ¬ op'.OccursIn [] := Operator.not_occursIn_of_not_mem (by simp)
  rw [Operator.occursIn_append_cons_iff (by decide), Operator.occursIn_append_cons_iff (by decide),
    or_iff_right hbefore, or_iff_left hbehind]

theorem occursIn_left_iff (hs : Blanks s) (ht : Blanks t) (hne : op' ≠ op) :
    op'.OccursIn ('(' :: (e ++ [')']) ++ s ++ op.symbol ++ t ++ n.val.text) ↔ op'.OccursIn e := by
  have hbefore : ¬ op'.OccursIn [] := Operator.not_occursIn_of_not_mem (by simp)
  have hbehind : ¬ op'.OccursIn (s ++ (op.symbol ++ (t ++ n.val.text))) := fun h => by
    have hn := Flat.not_mem_symbolChars n ht .nil
    rw [List.append_nil] at hn
    exact hne (Operator.eq_of_occursIn (Operator.not_mem_symbolChars_of_blanks hs) hn h)
  have hw : '(' :: (e ++ [')']) ++ s ++ op.symbol ++ t ++ n.val.text =
      [] ++ '(' :: (e ++ ')' :: (s ++ (op.symbol ++ (t ++ n.val.text)))) := by simp
  rw [hw, Operator.occursIn_append_cons_iff (by decide),
    Operator.occursIn_append_cons_iff (by decide), or_iff_right hbefore, or_iff_left hbehind]

/-- What begins with a numeral without a sign and an operator is neither a group nor a call. -/
theorem not_isGroup_or_isCall_right (hs : Blanks s) (v : Fragment) :
    ¬ IsGroup (n.val.text ++ s ++ op.symbol ++ v) ∧
      ¬ IsCall (n.val.text ++ s ++ op.symbol ++ v) := by
  have hnumeral : '(' ∉ n.val.text := IsLiteral.paren_not_mem ⟨n.val, rfl⟩
  have hblank : '(' ∉ s := hs.not_mem (by decide)
  constructor
  · intro hgroup
    have hhead := hgroup.head?_eq
    rw [List.append_assoc, List.append_assoc,
      List.head?_append_of_ne_nil _ n.val.text_ne_nil] at hhead
    exact hnumeral (List.mem_of_mem_head? hhead)
  · obtain ⟨c, rest, hc⟩ := List.exists_cons_of_ne_nil op.symbol_ne_nil
    have hmem : c ∈ op.symbol := by simp [hc]
    rw [hc, List.append_assoc, List.cons_append]
    exact not_isCall_of_append_cons (by simp [hnumeral, hblank]) (op.ne_open_of_mem_symbol hmem)
      (op.isWordChar_of_mem_symbol hmem)

/-- What ends with a numeral is neither a group nor a call. -/
theorem not_isGroup_or_isCall_left (v : Fragment) :
    ¬ IsGroup (v ++ n.val.text) ∧ ¬ IsCall (v ++ n.val.text) := by
  have hlast : (v ++ n.val.text).getLast? ≠ some ')' := fun h => by
    rw [List.getLast?_append_of_ne_nil _ n.val.text_ne_nil] at h
    have := n.val.of_getLast?_text h
    revert this
    decide
  exact ⟨fun h => hlast h.getLast?_eq, fun h => hlast h.getLast?_eq⟩

end Grouped

/-- **When an operand may stand in parentheses.** Let a text have a value, and stand in parentheses
beside an operator with a numeral without a sign on the other side.  On the right this has the value
of the operator if no earlier operator is found in the text, and on the left if neither an earlier
one nor the operator itself is; the limit needs to be higher by two.  Otherwise it has no value at
any limit. -/
theorem evaluate_grouped_operand {e : Fragment} {limit : Nat} {v : Binary64}
    (he : evaluate e limit = .ok v) (n : Unsigned) (op : Operator) {s t : Fragment}
    (hs : Blanks s) (ht : Blanks t) :
    ((∀ op' : Operator, op'.rank < op.rank → op'.find? e = none) →
      evaluate (n.val.text ++ s ++ op.symbol ++ t ++ '(' :: (e ++ [')'])) (limit + 2) =
        .ok (op.apply n.val.value v)) ∧
    ((∃ op' : Operator, op'.rank < op.rank ∧ op'.find? e ≠ none) → ∀ limit', ∃ error,
      evaluate (n.val.text ++ s ++ op.symbol ++ t ++ '(' :: (e ++ [')'])) limit' =
        .error error) ∧
    ((∀ op' : Operator, op'.rank ≤ op.rank → op'.find? e = none) →
      evaluate ('(' :: (e ++ [')']) ++ s ++ op.symbol ++ t ++ n.val.text) (limit + 2) =
        .ok (op.apply v n.val.value)) ∧
    ((∃ op' : Operator, op'.rank ≤ op.rank ∧ op'.find? e ≠ none) → ∀ limit', ∃ error,
      evaluate ('(' :: (e ++ [')']) ++ s ++ op.symbol ++ t ++ n.val.text) limit' =
        .error error) := by
  obtain ⟨h, hle, d⟩ := result_run_eq_ok_iff.1 he
  have hne : e ≠ [] := by
    rintro rfl
    exact d.ne_nil rfl
  have group : Derives ('(' :: (e ++ [')'])) v (h + 1) := .group hne d
  have hgroup : IsOperand ('(' :: (e ++ [')'])) := .group d.balanced.of_trim
  have hnumeral : IsOperand n.val.text := .numeral n.val
  have hrank : ∀ {op' : Operator}, op'.rank < op.rank → op' ≠ op := by
    rintro op' hlt rfl
    exact Nat.lt_irrefl _ hlt
  simp only [Operator.find?_eq_none_iff, ne_eq, not_not]
  refine ⟨fun hfree => ?_, ?_, fun hfree => ?_, ?_⟩
  · obtain ⟨hnotGroup, hnotCall⟩ := not_isGroup_or_isCall_right n hs (t ++ '(' :: (e ++ [')']))
    rw [← List.append_assoc] at hnotGroup hnotCall
    refine evaluate_operands hnumeral hgroup hs ht (.literal n.val) group hnotGroup hnotCall
      (fun op' hlt => ?_) (Operator.not_occursIn_of_not_mem n.not_mem_symbolChars) (by omega)
    rw [occursIn_right_iff n hs ht (hrank hlt)]
    exact hfree op' hlt
  · rintro ⟨op', hlt, hoccurs⟩
    refine exists_error_operands hnumeral hgroup hs ht (.inl ⟨op', hlt, ?_⟩)
    rwa [occursIn_right_iff n hs ht (hrank hlt)]
  · obtain ⟨hnotGroup, hnotCall⟩ := not_isGroup_or_isCall_left n
      ('(' :: (e ++ [')']) ++ s ++ op.symbol ++ t)
    refine evaluate_operands hgroup hnumeral hs ht group (.literal n.val) hnotGroup hnotCall
      (fun op' hlt => ?_) ?_ (by omega)
    · rw [occursIn_left_iff n hs ht (hrank hlt)]
      exact hfree op' hlt.le
    · rw [Operator.occursIn_parentheses_iff]
      exact hfree op le_rfl
  · rintro ⟨op', hle', hoccurs⟩
    refine exists_error_operands hgroup hnumeral hs ht ?_
    rcases Nat.lt_or_eq_of_le hle' with hlt | heq
    · exact .inl ⟨op', hlt, by rwa [occursIn_left_iff n hs ht (hrank hlt)]⟩
    · cases Operator.rank_injective heq
      exact .inr (Operator.occursIn_parentheses_iff.2 hoccurs)

/-- A sum in parentheses can be a factor on either side.  It cannot be subtracted, nor can anything
be subtracted from it, as the search stops at its plus sign. -/
theorem evaluate_grouped_operand_sum :
    evaluate "1+2".toList 1 = .ok (Operator.add.apply
      (Numeral.ofDigit '1' rfl).value (Numeral.ofDigit '2' rfl).value) ∧
    evaluate "3*(1+2)".toList 3 = .ok (Operator.mul.apply (Numeral.ofDigit '3' rfl).value
      (Operator.add.apply (Numeral.ofDigit '1' rfl).value (Numeral.ofDigit '2' rfl).value)) ∧
    evaluate "(1+2)*3".toList 3 = .ok (Operator.mul.apply (Operator.add.apply
      (Numeral.ofDigit '1' rfl).value (Numeral.ofDigit '2' rfl).value)
        (Numeral.ofDigit '3' rfl).value) ∧
    (∀ limit, ∃ error, evaluate "3-(1+2)".toList limit = .error error) ∧
    ∀ limit, ∃ error, evaluate "(1+2)-3".toList limit = .error error := by
  have hflat := Flat.Written.link (.ofDigit '1' rfl) .add .nil .nil
    (.numeral (.ofDigit '2' rfl) .nil .nil)
  have htree : (Flat.link (.ofDigit '1' rfl) .add (.numeral (.ofDigit '2' rfl))).tree =
      .binary (.numeral (.ofDigit '1' rfl)) .add (.numeral (.ofDigit '2' rfl)) := by
    rw [Flat.tree_of_split? rfl, Flat.tree_numeral, Flat.tree_numeral]
    rfl
  have hsum : evaluate "1+2".toList 1 = .ok (Operator.add.apply
      (Numeral.ofDigit '1' rfl).value (Numeral.ofDigit '2' rfl).value) := by
    have hrun := @Flat.result_run _ 1 0 _ hflat
    rw [htree] at hrun
    exact hrun
  have hfree : ∀ op : Operator, op.rank ≤ Operator.mul.rank → op.find? "1+2".toList = none :=
    fun op hle => by cases op <;> first | rfl | exact absurd hle (by decide)
  have hfound : Operator.add.rank < Operator.sub.rank ∧ Operator.add.find? "1+2".toList ≠ none := by
    decide
  obtain ⟨hright, -, hleft, -⟩ :=
    evaluate_grouped_operand hsum (.ofDigit '3' rfl) .mul .nil .nil
  obtain ⟨-, hright', -, hleft'⟩ :=
    evaluate_grouped_operand hsum (.ofDigit '3' rfl) .sub .nil .nil
  exact ⟨hsum, hright fun op hlt => hfree op hlt.le, hleft hfree, hright' ⟨_, hfound⟩,
    hleft' ⟨_, hfound.1.le, hfound.2⟩⟩

end Reckoner
