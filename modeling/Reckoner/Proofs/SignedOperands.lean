import Reckoner.Proofs.GroupedOperand

/-!
# Signs beside an operator

A sign belongs to a numeral, and it is also the symbol of an operator.  Between two numerals the search
stops at a sign instead of the operator if the sign comes first in the trial order, or first in the
text.  Nothing stands before the sign of the first numeral, and nothing but an operator before that of
the second, so what is cut off there holds an empty operand.
-/

namespace Reckoner

open Fragment

variable {x y : Numeral} {p q : Sign} {op op' : Operator} {s t v w l r : Fragment} {c : Char}
  {k limit depth : Nat}

/-! ## How often a symbol may be found -/

/-- What symbols are made of is in the sign of a numeral only. -/
theorem Numeral.count_text (n : Numeral) (hc : c ∈ Operator.symbolChars) :
    n.text.count c = n.sign.text.count c := by
  have hbody : c ∉ n.body := fun h => Operator.not_digit_of_mem_symbolChars hc (n.of_mem_body h)
  rw [text, List.count_append, List.count_eq_zero_of_not_mem hbody, Nat.add_zero]

theorem Blanks.count_eq_zero (hs : Blanks s) (hc : c ∈ Operator.symbolChars) : s.count c = 0 :=
  List.count_eq_zero_of_not_mem (hs.not_mem (Operator.isBlank_of_mem_symbolChars hc))

/-- A symbol is in no text that lacks some of its characters. -/
theorem freeBelow_of_count
    (h : ∀ op : Operator, op.rank < k → ∃ c ∈ op.symbol, w.count c < op.symbol.count c) :
    FreeBelow k w := by
  intro op hk hoccurs
  obtain ⟨c, -, hlt⟩ := h op hk
  exact absurd (hoccurs.sublist.count_le c) (Nat.not_le.2 hlt)

/-- Signs are no symbols of earlier operators, apart from a plus before the subtraction. -/
theorem Sign.count_text_eq_zero (hrank : op'.rank < op.rank) (hplus : op' = .add → p ≠ .plus)
    (hc : c ∈ op'.symbol) : p.text.count c = 0 := by
  refine List.count_eq_zero_of_not_mem fun hmem => ?_
  cases p with
  | plain => cases hmem
  | plus =>
    obtain rfl := List.mem_singleton.1 hmem
    cases op' <;> simp [Operator.symbol] at hc hplus
  | minus =>
    obtain rfl := List.mem_singleton.1 hmem
    cases op' <;> simp [Operator.symbol] at hc
    cases op <;> exact absurd hrank (by decide)

theorem Operator.count_symbol_lt (hrank : op'.rank < op.rank) (hc : c ∈ op'.symbol) :
    op.symbol.count c < op'.symbol.count c := by
  cases op' <;> cases op <;> first | exact absurd hrank (by decide) | skip
  all_goals
    simp only [symbol, List.mem_cons, List.not_mem_nil, or_false, or_self] at hc
    subst hc
    decide

/-- Behind a numeral and an operator, no earlier operator has its symbol, apart from an addition
that the signs write before a subtraction. -/
theorem freeBelow_operands (hs : Blanks s)
    (hv : ∀ c ∈ Operator.symbolChars, v.count c = q.text.count c)
    (hk : k ≤ op.rank) (hplus : Operator.add.rank < k → x.sign ≠ .plus ∧ q ≠ .plus) :
    FreeBelow k (x.text ++ s ++ op.symbol ++ v) := by
  refine freeBelow_of_count fun op' hop' => ?_
  obtain ⟨c, hc⟩ := List.exists_mem_of_ne_nil _ op'.symbol_ne_nil
  have hrank : op'.rank < op.rank := hop'.trans_le hk
  have hchar := Operator.mem_symbolChars hc
  have hplus' : op' = .add → x.sign ≠ .plus ∧ q ≠ .plus := by
    rintro rfl
    exact hplus hop'
  refine ⟨c, hc, ?_⟩
  rw [List.count_append, List.count_append, List.count_append, x.count_text hchar,
    hs.count_eq_zero hchar, hv c hchar, Sign.count_text_eq_zero hrank (fun h => (hplus' h).1) hc,
    Sign.count_text_eq_zero hrank (fun h => (hplus' h).2) hc]
  simpa using Operator.count_symbol_lt hrank hc

theorem count_blanks_append_numeral (ht : Blanks t) (hc : c ∈ Operator.symbolChars) :
    (t ++ y.text).count c = y.sign.text.count c := by
  rw [List.count_append, ht.count_eq_zero hc, y.count_text hc, Nat.zero_add]

/-! ## No other shape -/

theorem paren_not_mem_operands (hs : Blanks s) (hv : '(' ∉ v) :
    '(' ∉ x.text ++ s ++ op.symbol ++ v := by
  have hnumeral : '(' ∉ x.text := IsLiteral.paren_not_mem ⟨x, rfl⟩
  have hsymbol : '(' ∉ op.symbol := fun h => op.ne_open_of_mem_symbol h rfl
  simp [hnumeral, hs.not_mem (show isBlank '(' = false by decide), hsymbol, hv]

theorem paren_not_mem_blanks_append_numeral (ht : Blanks t) : '(' ∉ t ++ y.text := by
  have hnumeral : '(' ∉ y.text := IsLiteral.paren_not_mem ⟨y, rfl⟩
  simp [hnumeral, ht.not_mem (show isBlank '(' = false by decide)]

/-- Behind a numeral no symbol belongs to a numeral. -/
theorem not_isLiteral_operands : ¬ IsLiteral (x.text ++ s ++ op.symbol ++ v) := by
  rintro ⟨n, hn⟩
  obtain ⟨c, rest, hc⟩ := List.exists_cons_of_ne_nil op.symbol_ne_nil
  have hnil := n.eq_nil_of_text_eq (p := x.text ++ s) (c := c) (r := rest ++ v) (by simp [hn, hc])
    (op.not_digit_of_mem_symbol (by simp [hc]))
  exact x.text_ne_nil (List.append_eq_nil_iff.1 hnil).1

/-! ## Runs over what is cut off -/

theorem result_run_nil (hle : depth ≤ limit) :
    (run limit depth []).result = .error (.noMatchingRule []) :=
  congrArg Traced.result (run_of_classify_eq_none hle (by decide))

theorem result_run_numeral (hle : depth ≤ limit) (n : Numeral) :
    (run limit depth n.text).result = .ok n.value := by
  refine result_run_eq_ok_iff.2 ⟨0, hle, ?_⟩
  rw [n.trimmed_text]
  exact .literal n

/-- The rule of an operator is reached: no rule before it reads the fragment. -/
structure Reaches (op : Operator) (w : Fragment) : Prop where
  trimmed : Trimmed w
  not_isLiteral : ¬ w.IsLiteral
  paren_not_mem : '(' ∉ w
  freeBelow : FreeBelow op.rank w

namespace Reaches

theorem classify_eq (h : Reaches op w) (hcut : op.cut w = some (l, r)) :
    Fragment.classify (trim w) = some (.binary (trimEnd l) op (trimStart r)) := by
  rw [h.trimmed]
  exact classify_eq_some_iff.2 (.binary h.not_isLiteral (fun hcall => h.paren_not_mem hcall.paren_mem)
    (fun hgroup => h.paren_not_mem hgroup.paren_mem) h.freeBelow hcut)

/-- Where the fragment is cut, its operands are evaluated from left to right. -/
theorem result_run (h : Reaches op w) (hcut : op.cut w = some (l, r)) (hle : depth ≤ limit) :
    (run limit depth w).result = do
      let a ← (run limit (depth + 1) (trimEnd l)).result
      let b ← (run limit (depth + 1) (trimStart r)).result
      return op.apply a b := by
  rw [run_of_classify hle (h.classify_eq hcut), runCapture]
  cases hl : (run limit (depth + 1) (trimEnd l)).result with
  | error e =>
    rw [Traced.bind_of_error hl]
    rfl
  | ok a =>
    rw [Traced.bind_of_ok hl]
    cases hr : (run limit (depth + 1) (trimStart r)).result with
    | error e =>
      rw [Traced.bind_of_error hr]
      rfl
    | ok b =>
      rw [Traced.bind_of_ok hr]
      rfl

/-- A fragment that begins with the symbol it is cut at has an empty operand. -/
theorem result_run_symbol_append (h : Reaches op w) (hsymbol : w = op.symbol ++ r)
    (hlt : depth < limit) : (run limit depth w).result = .error (.noMatchingRule []) := by
  have hcut : op.cut w = some ([], r) :=
    h.freeBelow.cut_eq_some hsymbol (by simp [op.symbol_ne_nil]) (by simp)
  rw [h.result_run hcut hlt.le]
  exact congrArg (· >>= _) (result_run_nil hlt)

end Reaches

/-! ## A minus sign with nothing behind it -/

theorem trimmed_dangling : Trimmed (x.text ++ s ++ op.symbol) := by
  have hlast : ∀ c ∈ (x.text ++ s ++ op.symbol).getLast?, isBlank c = false := fun c hc => by
    rw [List.getLast?_append_of_ne_nil _ op.symbol_ne_nil] at hc
    exact op.isBlank_of_mem_symbol (List.mem_of_getLast? hc)
  refine .of_ends (fun c hc => ?_) hlast
  rw [List.append_assoc, List.head?_append_of_ne_nil _ x.text_ne_nil] at hc
  exact x.trimmed_text.head_not_blank c hc

theorem reaches_dangling (hs : Blanks s) (hx : x.sign ≠ .plus) :
    Reaches .sub (x.text ++ s ++ Operator.sub.symbol) := by
  have hliteral : ¬ IsLiteral (x.text ++ s ++ Operator.sub.symbol ++ []) := not_isLiteral_operands
  have hparen : '(' ∉ x.text ++ s ++ Operator.sub.symbol ++ [] :=
    paren_not_mem_operands hs List.not_mem_nil
  have hfree : FreeBelow Operator.sub.rank (x.text ++ s ++ Operator.sub.symbol ++ []) :=
    freeBelow_operands (q := .plain) hs (by simp [Sign.text]) le_rfl fun _ => ⟨hx, by decide⟩
  rw [List.append_nil] at hliteral hparen hfree
  exact ⟨trimmed_dangling, hliteral, hparen, hfree⟩

/-- A minus sign with nothing behind it is read as a subtraction, with an empty operand on the right,
or on the left if the numeral before it has a minus sign too. -/
theorem result_run_dangling (hlt : depth < limit) (hs : Blanks s) (hx : x.sign ≠ .plus) :
    (run limit depth (x.text ++ s ++ Operator.sub.symbol)).result =
      .error (.noMatchingRule []) := by
  have hreaches := reaches_dangling hs hx
  cases hsign : x.sign with
  | plus => exact absurd hsign hx
  | minus =>
    refine hreaches.result_run_symbol_append (r := x.body ++ s ++ Operator.sub.symbol) ?_ hlt
    simp [Numeral.text, hsign, Sign.text, Operator.symbol]
  | plain =>
    have hminus : ∀ c ∈ x.text ++ s, c ∉ Operator.sub.symbol := by
      have hchars := Flat.not_mem_symbolChars ⟨x, hsign⟩ .nil hs
      exact fun c hc hmem => hchars c hc (Operator.mem_symbolChars hmem)
    have hcut : Operator.sub.cut (x.text ++ s ++ Operator.sub.symbol) = some (x.text ++ s, []) := by
      refine hreaches.freeBelow.cut_eq_some (by simp) (fun hoccurs => ?_) fun c hc => ?_
      · exact hminus '-' (hoccurs.subset (by simp [Operator.symbol])) (by simp [Operator.symbol])
      · exact hminus c (List.mem_of_getLast? hc)
    have hright : (run limit (depth + 1) (trimStart [])).result = .error (.noMatchingRule []) :=
      result_run_nil hlt
    rw [hreaches.result_run hcut hlt.le, x.trimmed_text.trimEnd_append hs, result_run_numeral hlt,
      hright]
    rfl

/-! ## Two numerals and an operator -/

section

variable (hs : Blanks s) (ht : Blanks t)
include hs ht

/-- The rule of the operator or of an earlier one is reached, if no plus sign is cut at before it. -/
theorem reaches_operands (hrank : op'.rank ≤ op.rank)
    (hplus : Operator.add.rank < op'.rank → x.sign ≠ .plus ∧ y.sign ≠ .plus) :
    Reaches op' (x.text ++ s ++ op.symbol ++ t ++ y.text) := by
  have htrimmed : Trimmed (x.text ++ s ++ op.symbol ++ t ++ y.text) :=
    trimmed_operands (.numeral x) (.numeral y)
  rw [List.append_assoc _ t] at htrimmed ⊢
  exact ⟨htrimmed, not_isLiteral_operands,
    paren_not_mem_operands hs (paren_not_mem_blanks_append_numeral ht),
    freeBelow_operands hs (fun c => count_blanks_append_numeral ht) hrank hplus⟩

/-- Unless a sign is in the way, an operator between two numerals is applied to their values. -/
theorem evaluate_of_not_clash (hadd : op = .add → x.sign ≠ .plus)
    (hsub : op = .sub → x.sign = .plain ∧ y.sign ≠ .plus) (hle : 1 ≤ limit) :
    evaluate (x.text ++ s ++ op.symbol ++ t ++ y.text) limit = .ok (op.apply x.value y.value) := by
  have hreaches : Reaches op (x.text ++ s ++ op.symbol ++ t ++ y.text) := by
    refine reaches_operands hs ht le_rfl fun hlt => ?_
    have hop : op = .sub := by cases op <;> first | rfl | exact absurd hlt (by decide)
    simp [hsub hop]
  have hfirst : ¬ op.OccursIn x.text := by
    rintro ⟨l, r, hlr, -⟩
    have hoccurs : op.symbol <:+: x.text := ⟨l, r, hlr.symm⟩
    obtain ⟨c, hc⟩ := List.exists_mem_of_ne_nil _ op.symbol_ne_nil
    have hmem : 0 < x.sign.text.count c := by
      rw [← x.count_text (Operator.mem_symbolChars hc)]
      exact List.count_pos_iff.2 (hoccurs.subset hc)
    cases hsign : x.sign <;> cases op <;> simp_all [Operator.symbol, Sign.text]
  exact evaluate_operands (.numeral x) (.numeral y) hs ht (.literal x) (.literal y)
    (fun h => hreaches.paren_not_mem h.paren_mem) (fun h => hreaches.paren_not_mem h.paren_mem)
    (freeBelow_iff.1 hreaches.freeBelow) hfirst (by simpa using hle)

/-- A sum or a difference that begins with a sign of its operator or of an earlier one is cut there. -/
theorem evaluate_of_leading_sign (hle : 1 ≤ limit) (hrank : op'.rank ≤ op.rank)
    (hsign : x.sign.text = op'.symbol) (hplus : op' = .sub → y.sign ≠ .plus) :
    evaluate (x.text ++ s ++ op.symbol ++ t ++ y.text) limit = .error (.noMatchingRule []) := by
  have hreaches : Reaches op' (x.text ++ s ++ op.symbol ++ t ++ y.text) := by
    refine reaches_operands hs ht hrank fun hlt => ?_
    obtain rfl : op' = .sub := by cases op' <;> first | rfl | exact absurd hlt (by decide)
    refine ⟨fun hx => ?_, hplus rfl⟩
    rw [hx] at hsign
    exact absurd hsign (by decide)
  refine hreaches.result_run_symbol_append (r := x.body ++ s ++ op.symbol ++ t ++ y.text) ?_ hle
  rw [← hsign, Numeral.text]
  simp

/-- A plus sign behind a minus is cut at first, and leaves the minus dangling. -/
theorem evaluate_of_plus_behind_minus (hle : 2 ≤ limit) (hx : x.sign ≠ .plus) (hy : y.sign = .plus) :
    evaluate (x.text ++ s ++ Operator.sub.symbol ++ t ++ y.text) limit =
      .error (.noMatchingRule []) := by
  have hrank : Operator.add.rank < Operator.sub.rank := by decide
  have hreaches : Reaches .add (x.text ++ s ++ Operator.sub.symbol ++ t ++ y.text) :=
    reaches_operands hs ht hrank.le fun hlt => absurd hlt (lt_irrefl _)
  have hnotplus : '+' ∉ x.text ++ s ++ Operator.sub.symbol ++ t := by
    have hzero := x.count_text (c := '+') (by decide)
    rw [Sign.count_text_eq_zero hrank (fun _ => hx) (by simp [Operator.symbol]),
      List.count_eq_zero] at hzero
    have hblank : isBlank '+' = false := by decide
    simp [hzero, hs.not_mem hblank, ht.not_mem hblank, Operator.symbol]
  -- the only plus sign is that of the second numeral
  have hcut : Operator.add.cut (x.text ++ s ++ Operator.sub.symbol ++ t ++ y.text) =
      some (x.text ++ s ++ Operator.sub.symbol ++ t, y.body) := by
    refine hreaches.freeBelow.cut_eq_some ?_
      (fun hoccurs => hnotplus (hoccurs.subset (by simp [Operator.symbol]))) fun c hc hmem => ?_
    · simp [Numeral.text, hy, Sign.text, Operator.symbol]
    · obtain rfl := List.mem_singleton.1 hmem
      exact hnotplus (List.mem_of_getLast? hc)
  rw [evaluate, trace, hreaches.result_run hcut (Nat.zero_le _), trimmed_dangling.trimEnd_append ht]
  exact congrArg (· >>= _) (result_run_dangling (by omega) hs hx)

end

/-- **Two numerals and an operator.** The operator is applied to the values of the numerals, except
where a sign is cut at in its place: in a sum or a difference that begins with a plus sign, in a
difference that begins with a minus sign, and in one whose second numeral has a plus sign.  There an
empty operand is left, which no rule matches. -/
theorem evaluate_signed_operands (x y : Numeral) (op : Operator) {s t : Fragment} (hs : Blanks s)
    (ht : Blanks t) : evaluate (x.text ++ s ++ op.symbol ++ t ++ y.text) =
      if op = .add ∧ x.sign = .plus ∨ op = .sub ∧ (x.sign = .plus ∨ x.sign = .minus) ∨
          op = .sub ∧ y.sign = .plus then
        .error (.noMatchingRule [])
      else .ok (op.apply x.value y.value) := by
  have hlimit : 2 ≤ defaultLimit := by decide
  have hlimit' : 1 ≤ defaultLimit := by decide
  split
  · next h =>
    have hop : op = .add ∧ x.sign = .plus ∨ op = .sub := by tauto
    cases hx : x.sign with
    | plus =>
      have hplus : x.sign.text = Operator.add.symbol := by rw [hx]; rfl
      have hrank : Operator.add.rank ≤ op.rank := by
        rcases hop with ⟨rfl, -⟩ | rfl <;> decide
      exact evaluate_of_leading_sign hs ht hlimit' hrank hplus nofun
    | minus =>
      obtain rfl : op = .sub := hop.resolve_left (by simp [hx])
      have hminus : x.sign.text = Operator.sub.symbol := by rw [hx]; rfl
      by_cases hy : y.sign = .plus
      · exact evaluate_of_plus_behind_minus hs ht hlimit (by simp [hx]) hy
      · exact evaluate_of_leading_sign hs ht hlimit' le_rfl hminus fun _ => hy
    | plain =>
      obtain rfl : op = .sub := hop.resolve_left (by simp [hx])
      have hy : y.sign = .plus := by simpa [hx] using h
      exact evaluate_of_plus_behind_minus hs ht hlimit (by simp [hx]) hy
  · next h =>
    refine evaluate_of_not_clash hs ht ?_ ?_ hlimit'
    · rintro rfl hx
      exact h (.inl ⟨rfl, hx⟩)
    · rintro rfl
      have hplain : x.sign = .plain := by
        cases hx : x.sign <;> simp_all
      exact ⟨hplain, fun hy => h (.inr (.inr ⟨rfl, hy⟩))⟩

/-- A negative numeral may be subtracted, but nothing may be subtracted from it. -/
theorem evaluate_signed_operands_minus :
    Blanks [' '] ∧ Blanks [] ∧
    evaluate "-1 -2".toList = .error (.noMatchingRule []) ∧
    evaluate "1 --2".toList = .ok (Operator.sub.apply (Numeral.ofDigit '1' rfl).value
      { Numeral.ofDigit '2' rfl with sign := .minus }.value) := by
  have blank : Blanks [' '] := by decide
  have hfails := evaluate_signed_operands { Numeral.ofDigit '1' rfl with sign := .minus }
    (.ofDigit '2' rfl) .sub blank .nil
  have hholds := evaluate_signed_operands (.ofDigit '1' rfl)
    { Numeral.ofDigit '2' rfl with sign := .minus } .sub blank .nil
  rw [if_pos (by decide)] at hfails
  rw [if_neg (by decide)] at hholds
  exact ⟨blank, .nil, hfails, hholds⟩

end Reckoner
