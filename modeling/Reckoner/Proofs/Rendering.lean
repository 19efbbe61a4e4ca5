import Reckoner.Proofs.Balance

/-!
# Expressions in full parentheses

A tree of numerals, calls and operators is written with every binary operand in parentheses.  The
rules of recognition do not respect these parentheses, but a cut anywhere else than at the operator
of the tree leaves an unbalanced or an unfinished text.  So evaluation may refuse what is written,
but never gives another value than that of the tree.
-/

namespace Reckoner

open Fragment

inductive Expr
  | numeral (n : Numeral)
  | call (f : Function) (argument : Expr)
  | binary (left : Expr) (op : Operator) (right : Expr)

namespace Expr

/-- The value of a tree, from the leaves up. -/
def value : Expr → Binary64
  | numeral n => n.value
  | call f argument => f.apply argument.value
  | binary left op right => op.apply left.value right.value

/-- What an expression that is written as `w` is written as where it is an operand. -/
def operand (w : Fragment) : Expr → Fragment
  | binary _ _ _ => '(' :: (w ++ [')'])
  | _ => w

/-- The ways to write a tree, which differ in the blanks around operators. -/
inductive Written : Expr → Fragment → Prop
  | numeral (n : Numeral) : Written (numeral n) n.text
  | call {e : Expr} {w : Fragment} (f : Function) (he : Written e w) :
      Written (call f e) (f.name ++ '(' :: (w ++ [')']))
  | binary {l r : Expr} {u v s t : Fragment} (op : Operator) (hl : Written l u) (hr : Written r v)
      (hs : Blanks s) (ht : Blanks t) :
      Written (binary l op r) (l.operand u ++ s ++ op.symbol ++ t ++ r.operand v)

end Expr

/-! ## Operands -/

/-- What operands look like: a numeral, or a balanced text in parentheses, called or not. -/
inductive IsOperand : Fragment → Prop
  | numeral (n : Numeral) : IsOperand n.text
  | call {u : Fragment} (f : Function) (hu : Balanced u) :
      IsOperand (f.name ++ '(' :: (u ++ [')']))
  | group {u : Fragment} (hu : Balanced u) : IsOperand ('(' :: (u ++ [')']))

namespace IsOperand

variable {w : Fragment}

theorem balanced (h : IsOperand w) : Balanced w := by
  cases h with
  | numeral n => exact n.balanced_text
  | call f hu => exact (Balanced.of_isWordChar f.isWordChar_of_mem_name).append hu.wrap
  | group hu => exact hu.wrap

theorem ne_nil (h : IsOperand w) : w ≠ [] := by
  cases h with
  | numeral n => exact n.text_ne_nil
  | call f hu => simp
  | group hu => simp

theorem trimmed (h : IsOperand w) : Trimmed w := by
  cases h with
  | numeral n => exact n.trimmed_text
  | call f hu =>
    refine Trimmed.of_ends (fun c hc => ?_) (fun c hc => ?_)
    · cases f <;> cases hc <;> decide
    · rw [← List.cons_append, ← List.append_assoc, List.getLast?_concat] at hc
      cases hc
      decide
  | group hu =>
    refine Trimmed.of_ends (fun c hc => ?_) (fun c hc => ?_)
    · cases hc
      decide
    · rw [← List.cons_append, List.getLast?_concat] at hc
      cases hc
      decide

theorem head_ne (h : IsOperand w) : ∀ c ∈ w.head?, c ≠ '*' ∧ c ≠ '/' := by
  cases h with
  | numeral n => exact n.head_text_ne
  | call f hu =>
    intro c hc
    cases f <;> cases hc <;> decide
  | group hu =>
    intro c hc
    cases hc
    decide

/-- Behind matched parentheses, a symbol stands in an operand only as the sign of a numeral. -/
theorem eq_nil_of_eq {op : Operator} {p x : Fragment} {c : Char} (h : IsOperand w)
    (hw : w = p ++ c :: x) (hc : c ∈ op.symbol) (hp : p.count '(' = p.count ')') : p = [] := by
  cases h with
  | numeral n => exact n.eq_nil_of_text_eq hw (op.not_digit_of_mem_symbol hc)
  | call f hu =>
    exact absurd hw (hu.ne_append_cons f.isWordChar_of_mem_name hp hc)
  | @group u hu =>
    have hname : ∀ c ∈ ([] : Fragment), isWordChar c := by simp
    exact absurd hw (hu.ne_append_cons hname hp hc)

end IsOperand

/-! ## Where a written expression may be cut -/

theorem Blanks.head_ne_of_append {s w : Fragment} (hs : Blanks s)
    (hw : ∀ c ∈ w.head?, c ≠ '*' ∧ c ≠ '/') : ∀ c ∈ (s ++ w).head?, c ≠ '*' ∧ c ≠ '/' := by
  cases s with
  | nil => exact hw
  | cons b s =>
    rintro _ ⟨⟩
    have hb := hs b (by simp)
    constructor <;> rintro rfl <;> exact absurd hb (by decide)

section Split

variable {A B s t l s₁ R m v : Fragment} {op op' : Operator} {a x : Binary64} {j k : Nat}

theorem trimmed_operands (hA : IsOperand A) (hB : IsOperand B) :
    Trimmed (A ++ s ++ op.symbol ++ t ++ B) := by
  rw [List.append_assoc A, List.append_assoc A]
  exact hA.trimmed.append_append hB.trimmed hA.ne_nil hB.ne_nil _

/-- A symbol behind the start of `op`, with matched parentheses before it, stands behind part of the
symbol of `op` and blanks. -/
theorem exists_symbol_append_blanks (hB : IsOperand B) (ht : Blanks t) (hm : m ≠ [])
    (hclosed : m.count '(' = m.count ')')
    (h : op.symbol ++ t ++ B = m ++ (op'.symbol ++ R)) :
    ∃ x t', m = x ++ t' ∧ x ≠ [] ∧ (∀ c ∈ x, c ∈ op.symbol) ∧ Blanks t' := by
  obtain ⟨c, rest, hc⟩ := List.exists_cons_of_ne_nil op'.symbol_ne_nil
  have hmem : c ∈ op'.symbol := by simp [hc]
  have hwhole : ∃ x t', op.symbol ++ t = x ++ t' ∧ x ≠ [] ∧ (∀ c ∈ x, c ∈ op.symbol) ∧ Blanks t' :=
    ⟨_, t, rfl, op.symbol_ne_nil, fun _ => id, ht⟩
  rcases List.append_eq_append_iff.1 h with ⟨q, rfl, hq⟩ | ⟨q, hq, hR⟩
  · have hqclosed := ((Balanced.symbol op).append (.of_blanks ht)).count_eq_of_append hclosed
    rw [hc, List.cons_append] at hq
    rw [hB.eq_nil_of_eq hq hmem hqclosed, List.append_nil]
    exact hwhole
  · cases q with
    | nil =>
      rw [List.append_nil] at hq
      exact hq ▸ hwhole
    | cons d q =>
      rw [hc] at hR
      obtain ⟨rfl, -⟩ := List.cons.inj hR
      rcases List.append_eq_append_iff.1 hq with ⟨z, rfl, hz⟩ | ⟨z, hz, -⟩
      · have := ht c (by simp [hz])
        simp [op'.isBlank_of_mem_symbol hmem] at this
      · exact ⟨m, [], by simp, hm, fun d hd => by simp [hz, hd], .nil⟩

/-- No text with a value ends behind the start of `op`: it would end with part of its symbol. -/
theorem eq_nil_of_split_behind (hA : IsOperand A) (hB : IsOperand B) (hs : Blanks s) (ht : Blanks t)
    (hs₁ : Blanks s₁) (hl : Trimmed l) (left : Derives l a j) (hm : l ++ s₁ = A ++ s ++ m)
    (h : op.symbol ++ t ++ B = m ++ (op'.symbol ++ R)) : m = [] := by
  by_contra hne
  have hclosed := (left.balanced.append (.of_blanks hs₁)).closed
  have hmclosed := (hA.balanced.append (.of_blanks hs)).count_eq_of_append (hm ▸ hclosed)
  obtain ⟨x, t', rfl, hx, hxop, ht'⟩ := exists_symbol_append_blanks hB ht hne hmclosed h
  obtain ⟨y, d, hyd⟩ := (List.eq_nil_or_concat x).resolve_left hx
  rw [List.concat_eq_append] at hyd
  subst hyd
  have hd : d ∈ op.symbol := hxop d (by simp)
  have hlast : (A ++ s ++ (y ++ [d])).getLast? = some d := by
    rw [← List.append_assoc, List.getLast?_concat]
  have hend : l = A ++ s ++ (y ++ [d]) := by
    have hblank : ∀ e ∈ (A ++ s ++ (y ++ [d])).getLast?, isBlank e = false := by
      rw [hlast]
      rintro _ ⟨⟩
      exact op.isBlank_of_mem_symbol hd
    calc
      l = trimEnd (l ++ s₁) := (hl.trimEnd_append hs₁).symm
      _ = trimEnd (A ++ s ++ (y ++ [d]) ++ t') := by rw [hm, List.append_assoc (A ++ s)]
      _ = A ++ s ++ (y ++ [d]) := by
        rw [trimEnd_append_of_blanks ht', trimEnd_eq_self_iff.2 hblank]
  exact left.last_not_mem d (hend ▸ hlast) (op.mem_symbolChars hd)

/-- No text with a value ends before the blanks in front of `op`: what stands next in the operand is
neither a symbol nor blank. -/
theorem eq_nil_of_split_before (hA : IsOperand A) (hs : Blanks s) (hs₁ : Blanks s₁)
    (left : Derives l a j) (hm : A ++ s = l ++ s₁ ++ m) (h : op'.symbol ++ R = m ++ v) :
    m = [] := by
  obtain ⟨c, rest, hc⟩ := List.exists_cons_of_ne_nil op'.symbol_ne_nil
  have hmem : c ∈ op'.symbol := by simp [hc]
  have hnotblank : c ∉ s := hs.not_mem (op'.isBlank_of_mem_symbol hmem)
  have hclosed := (left.balanced.append (.of_blanks hs₁)).closed
  cases m with
  | nil => rfl
  | cons d m =>
    rw [hc] at h
    obtain ⟨rfl, -⟩ := List.cons.inj h
    rcases List.append_eq_append_iff.1 hm with ⟨z, -, hz⟩ | ⟨z, hz, hs'⟩
    · exact absurd (by simp [hz]) hnotblank
    · cases z with
      | nil => exact absurd (by simp [← show c :: m = s from hs']) hnotblank
      | cons e z =>
        obtain ⟨rfl, -⟩ := List.cons.inj hs'
        have := hA.eq_nil_of_eq hz hmem hclosed
        exact absurd (List.append_eq_nil_iff.1 this).1 left.ne_nil

/-- Two ways to split a text at an operator agree on where the operator stands, if one is that of a
written expression and the left part of the other has a value. -/
theorem left_eq_of_split (hA : IsOperand A) (hB : IsOperand B) (hs : Blanks s) (ht : Blanks t)
    (hs₁ : Blanks s₁) (hl : Trimmed l) (left : Derives l a j)
    (h : A ++ s ++ (op.symbol ++ t ++ B) = l ++ s₁ ++ (op'.symbol ++ R)) : A ++ s = l ++ s₁ := by
  rcases List.append_eq_append_iff.1 h with ⟨m, hm, hR⟩ | ⟨m, hm, hR⟩
  · rw [hm, eq_nil_of_split_behind hA hB hs ht hs₁ hl left hm hR, List.append_nil]
  · rw [hm, eq_nil_of_split_before hA hs hs₁ left hm hR, List.append_nil]

/-- What is derived of two operands and an operator is split at that operator: it is the first one to
be tried, and does not occur before. -/
theorem exists_of_derives (hA : IsOperand A) (hB : IsOperand B) (hs : Blanks s) (ht : Blanks t)
    (d : Derives (A ++ s ++ op.symbol ++ t ++ B) x k) :
    (∃ a b i j, Derives A a i ∧ Derives B b j ∧ x = op.apply a b) ∧
      (∀ op' : Operator, op'.rank < op.rank →
        ¬ op'.OccursIn (A ++ s ++ op.symbol ++ t ++ B)) ∧ ¬ op.OccursIn A := by
  have hclosed := (hA.balanced.append (.of_blanks hs)).closed
  obtain ⟨c, rest, hc⟩ := List.exists_cons_of_ne_nil op.symbol_ne_nil
  have hmem : c ∈ op.symbol := by simp [hc]
  generalize hw : A ++ s ++ op.symbol ++ t ++ B = w at d ⊢
  have hcons : w = (A ++ s) ++ c :: (rest ++ t ++ B) := by simp [← hw, hc]
  cases d with
  | literal n =>
    have := n.eq_nil_of_text_eq hcons (op.not_digit_of_mem_symbol hmem)
    exact absurd (List.append_eq_nil_iff.1 this).1 hA.ne_nil
  | group hu inner =>
    have hname : ∀ c ∈ ([] : Fragment), isWordChar c := by simp
    exact absurd hcons (inner.balanced.of_trim.ne_append_cons hname hclosed hmem)
  | call f hu argument =>
    exact absurd hcons
      (argument.balanced.of_trim.ne_append_cons f.isWordChar_of_mem_name hclosed hmem)
  | @binary _ l s₁ s₂ r op' a b i j hlr hs₁ hs₂ hl' hr' left right hgroup hcall hearlier hfirst =>
    have hsplit : A ++ s ++ (op.symbol ++ t ++ B) = l ++ s₁ ++ (op'.symbol ++ (s₂ ++ r)) := by
      simpa using hw.trans hlr
    have hleft := left_eq_of_split hA hB hs ht hs₁ hl' left hsplit
    rw [hleft, List.append_cancel_left_eq, List.append_assoc] at hsplit
    obtain ⟨rfl, hright⟩ := Operator.symbol_append_inj (ht.head_ne_of_append hB.head_ne)
      (hs₂.head_ne_of_append right.head_ne) hsplit
    have hl : l = A := by
      rw [← hl'.trimEnd_append hs₁, ← hleft, hA.trimmed.trimEnd_append hs]
    have hr : r = B := by
      rw [← hr'.trimStart_append hs₂, ← hright, hB.trimmed.trimStart_append ht]
    exact ⟨⟨a, b, i, j, hl ▸ left, hr ▸ right, rfl⟩, hearlier, hl ▸ hfirst⟩

end Split

/-! ## The value of what is written -/

namespace Expr.Written

variable {e : Expr} {w : Fragment}

theorem balanced (h : Written e w) : Balanced w := by
  have operand : ∀ {e : Expr} {w : Fragment}, Balanced w → Balanced (e.operand w) := by
    intro e w hw
    cases e with
    | numeral n => exact hw
    | call f e => exact hw
    | binary l op r => exact hw.wrap
  induction h with
  | numeral n => exact n.balanced_text
  | call f _ ih => exact (Balanced.of_isWordChar f.isWordChar_of_mem_name).append ih.wrap
  | binary op _ _ hs ht ihl ihr =>
    exact ((((operand ihl).append (.of_blanks hs)).append (.symbol op)).append
      (.of_blanks ht)).append (operand ihr)

theorem isOperand (h : Written e w) : IsOperand (e.operand w) := by
  cases h with
  | numeral n => exact .numeral n
  | call f he => exact .call f he.balanced
  | binary op hl hr hs ht => exact .group (Written.binary op hl hr hs ht).balanced

theorem ne_nil (h : Written e w) : w ≠ [] := by
  cases h with
  | numeral n => exact n.text_ne_nil
  | call f he => simp
  | binary op hl hr hs ht => simp [hl.isOperand.ne_nil]

theorem trimmed (h : Written e w) : Trimmed w := by
  cases h with
  | numeral n => exact n.trimmed_text
  | call f he => exact (Written.call f he).isOperand.trimmed
  | binary op hl hr hs ht => exact trimmed_operands hl.isOperand hr.isOperand

/-- An operand has no other value than what it is written from. -/
theorem value_eq_of_operand (h : Written e w) (ih : ∀ v k, Derives w v k → v = e.value)
    {v : Binary64} {k : Nat} (d : Derives (e.operand w) v k) : v = e.value := by
  cases e with
  | numeral n => exact ih v k d
  | call f e => exact ih v k d
  | binary l op r =>
    obtain ⟨c, hc, dc⟩ := d.exists_recognized
    cases hc.unique (.group h.ne_nil rfl)
    obtain ⟨k', rfl, d'⟩ := dc
    exact ih v k' (h.trimmed ▸ d')

/-- A written tree has no other value than that of the tree. -/
theorem value_eq (h : Written e w) {v : Binary64} {k : Nat} (d : Derives w v k) :
    v = e.value := by
  induction h generalizing v k with
  | numeral n =>
    obtain ⟨c, hc, dc⟩ := d.exists_recognized
    cases hc.unique (.literal ⟨n, rfl⟩)
    have := (readLiteral_eq_ok_iff.2 dc.2).symm.trans n.readLiteral_text
    exact Except.ok.inj this
  | call f he ih =>
    obtain ⟨c, hc, dc⟩ := d.exists_recognized
    cases hc.unique (.call f.name_ne_nil f.isWordChar_of_mem_name he.ne_nil rfl)
    obtain ⟨k', x, rfl, dx, hf⟩ := dc
    rw [he.trimmed] at dx
    cases ih dx
    have := (applyFunction_eq_ok_iff.2 hf).symm.trans
      (applyFunction_eq_ok_iff.2 ⟨f, rfl, rfl⟩)
    exact Except.ok.inj this
  | binary op hl hr hs ht ihl ihr =>
    obtain ⟨⟨a, b, i, j, left, right, rfl⟩, -⟩ :=
      exists_of_derives hl.isOperand hr.isOperand hs ht d
    rw [Expr.value, hl.value_eq_of_operand (fun _ _ => ihl) left,
      hr.value_eq_of_operand (fun _ _ => ihr) right]

end Expr.Written

/-- **Written expressions are never misread.** -/
theorem evaluate_written {e : Expr} {w : Fragment} (h : e.Written w) (limit : Nat) :
    evaluate w limit = .ok e.value ∨ ∃ error, evaluate w limit = .error error := by
  cases hv : evaluate w limit with
  | error error => exact .inr ⟨error, rfl⟩
  | ok v =>
    obtain ⟨k, -, d⟩ := result_run_eq_ok_iff.1 hv
    rw [h.trimmed] at d
    exact .inl (by rw [h.value_eq d])

/-- A numeral of one digit. -/
def Numeral.ofDigit (c : Char) (hc : c.isDigit) : Numeral :=
  ⟨.plain, [c], none, by simp, by simpa using hc, by simp⟩

/-- The product of two sums begins and ends like a group.  What is inside is cut at the same star,
but has lost the parenthesis that opens the first sum, so the text is refused. -/
theorem evaluate_written_product :
    (Expr.binary (.binary (.numeral (.ofDigit '1' rfl)) .add (.numeral (.ofDigit '2' rfl))) .mul
      (.binary (.numeral (.ofDigit '3' rfl)) .sub (.numeral (.ofDigit '4' rfl)))).Written
        "(1 + 2)*(3-4)".toList ∧
    (evaluate "(1 + 2)*(3-4)".toList 256 =
      .ok (Expr.binary (.binary (.numeral (.ofDigit '1' rfl)) .add (.numeral (.ofDigit '2' rfl)))
        .mul (.binary (.numeral (.ofDigit '3' rfl)) .sub (.numeral (.ofDigit '4' rfl)))).value ∨
      ∃ error, evaluate "(1 + 2)*(3-4)".toList 256 = .error error) ∧
    evaluate "(1 + 2)*(3-4)".toList 256 = .error (.noMatchingRule "2)".toList) := by
  have digit : ∀ c (hc : c.isDigit), (Expr.numeral (.ofDigit c hc)).Written [c] :=
    fun c hc => .numeral (.ofDigit c hc)
  have blank : Blanks [' '] := by decide
  have sum := Expr.Written.binary .add (digit '1' rfl) (digit '2' rfl) blank blank
  have difference := Expr.Written.binary .sub (digit '3' rfl) (digit '4' rfl) .nil .nil
  have product := Expr.Written.binary .mul sum difference .nil .nil
  have hgroup : classify (trim "(1 + 2)*(3-4)".toList) = some (.group "1 + 2)*(3-4".toList) := by
    decide
  have hproduct : classify (trim "1 + 2)*(3-4".toList) =
      some (.binary "1 + 2)".toList .mul "(3-4".toList) := by decide
  have hsum : classify (trim "1 + 2)".toList) = some (.binary "1".toList .add "2)".toList) := by
    decide
  have hone : (run 256 3 "1".toList).result = .ok (Numeral.ofDigit '1' rfl).value := by
    have hliteral : classify (trim "1".toList) = some (.literal "1".toList) := by decide
    rw [run_of_classify (by decide) hliteral]
    exact (Numeral.ofDigit '1' rfl).readLiteral_text
  have htwo : (run 256 3 "2)".toList).result = .error (.noMatchingRule "2)".toList) :=
    congrArg Traced.result (run_of_classify_eq_none (by decide) (by decide))
  have hleft : (run 256 2 "1 + 2)".toList).result = .error (.noMatchingRule "2)".toList) := by
    rw [run_of_classify (by decide) hsum, runCapture, Traced.bind_of_ok hone,
      Traced.bind_of_error htwo]
  refine ⟨product, evaluate_written product 256, ?_⟩
  rw [evaluate, trace, run_of_classify (by decide) hgroup, runCapture,
    run_of_classify (by decide) hproduct, runCapture, Traced.bind_of_error hleft]

end Reckoner
