import Reckoner.Proofs.Run

/-!
# The accepted language

A text is accepted when a derivation reads it: a numeral, a group or a call around a text that is
derived, or two derived texts around an operator, where the rules of the search leave no other
choice.  Evaluation succeeds exactly on the derived texts, with the derived value, as soon as the
limit reaches the height of the derivation.
-/

namespace Reckoner

open Fragment

/-- The trimmed text has the value, by a derivation of the height. -/
inductive Derives : Fragment → Binary64 → Nat → Prop
  | literal (n : Numeral) : Derives n.text n.value 0
  | group {u : Fragment} {v : Binary64} {h : Nat} (hu : u ≠ []) (inner : Derives (trim u) v h) :
      Derives ('(' :: (u ++ [')'])) v (h + 1)
  | call {u : Fragment} {x : Binary64} {h : Nat} (f : Function) (hu : u ≠ [])
      (argument : Derives (trim u) x h) : Derives (f.name ++ '(' :: (u ++ [')'])) (f.apply x) (h + 1)
  | binary {w l s₁ s₂ r : Fragment} {op : Operator} {a b : Binary64} {j k : Nat}
      (hw : w = l ++ s₁ ++ op.symbol ++ s₂ ++ r) (hs₁ : Blanks s₁) (hs₂ : Blanks s₂)
      (hl : Trimmed l) (hr : Trimmed r) (left : Derives l a j) (right : Derives r b k)
      (hgroup : ¬ w.IsGroup) (hcall : ¬ w.IsCall)
      (hearlier : ∀ op' : Operator, op'.rank < op.rank → ¬ op'.OccursIn w)
      (hfirst : ¬ op.OccursIn l) : Derives w (op.apply a b) (1 + max j k)

/-- What a derivation makes of a recognized fragment, whose parts are derived once trimmed. -/
def DerivesCapture (v : Binary64) (h : Nat) : Capture → Prop
  | .literal u => h = 0 ∧ ∃ n : Numeral, n.text = u ∧ n.value = v
  | .call name u => ∃ k x, h = k + 1 ∧ Derives (trim u) x k ∧
      ∃ f : Function, f.name = name ∧ f.apply x = v
  | .group u => ∃ k, h = k + 1 ∧ Derives (trim u) v k
  | .binary l op r => ∃ j k a b, h = 1 + max j k ∧ Derives (trim l) a j ∧ Derives (trim r) b k ∧
      op.apply a b = v

variable {w : Fragment} {v : Binary64} {h : Nat}

theorem Function.name_ne_nil (f : Function) : f.name ≠ [] := by cases f <;> simp [name]

theorem Function.isWordChar_of_mem_name (f : Function) : ∀ c ∈ f.name, isWordChar c := by
  have : f.name.all isWordChar := by cases f <;> decide
  exact List.all_eq_true.1 this

/-- A derived text ends with a digit, a point or a closing parenthesis. -/
theorem Derives.exists_getLast? (d : Derives w v h) :
    ∃ c, w.getLast? = some c ∧ (c.isDigit ∨ c = '.' ∨ c = ')') := by
  induction d with
  | literal n =>
    refine ⟨_, List.getLast?_eq_some_getLast n.text_ne_nil, ?_⟩
    rcases n.of_getLast?_text (List.getLast?_eq_some_getLast n.text_ne_nil) with hd | hp
    · exact .inl hd
    · exact .inr (.inl hp)
  | group => exact ⟨')', by simp [List.getLast?_cons], by simp⟩
  | call => exact ⟨')', by simp [List.getLast?_cons], by simp⟩
  | binary hw _ _ _ _ _ _ _ _ _ _ _ ih =>
    obtain ⟨c, hc, hend⟩ := ih
    exact ⟨c, by simp [hw, List.getLast?_append, hc], hend⟩

theorem Derives.ne_nil (d : Derives w v h) : w ≠ [] := by
  obtain ⟨c, hc, -⟩ := d.exists_getLast?
  rintro rfl
  cases hc

/-- No derived text ends with part of a symbol. -/
theorem Derives.last_not_mem (d : Derives w v h) :
    ∀ c ∈ w.getLast?, c ∉ Operator.symbolChars := by
  obtain ⟨c, hc, hend⟩ := d.exists_getLast?
  rw [hc]
  rintro _ ⟨⟩ hmem
  have : Operator.symbolChars.all fun c => ! (c.isDigit || c == '.' || c == ')') := by decide
  have := List.all_eq_true.1 this c hmem
  simp_all

/-- No derived text begins with a `*` or a `/`. -/
theorem Derives.head_ne (d : Derives w v h) : ∀ c ∈ w.head?, c ≠ '*' ∧ c ≠ '/' := by
  induction d with
  | literal n => exact n.head_text_ne
  | group =>
    rintro _ ⟨⟩
    decide
  | call f =>
    intro c hc
    cases f <;> cases hc <;> decide
  | binary hw _ _ _ _ left _ _ _ _ _ ih =>
    rw [hw, List.append_assoc, List.append_assoc, List.append_assoc,
      List.head?_append_of_ne_nil _ left.ne_nil]
    exact ih

/-! ## Derivations follow recognition -/

theorem Derives.exists_recognized (d : Derives w v h) :
    ∃ c, Recognized w c ∧ DerivesCapture v h c := by
  cases d with
  | literal n => exact ⟨_, .literal ⟨n, rfl⟩, rfl, n, rfl, rfl⟩
  | group hu inner => exact ⟨_, .group hu rfl, _, rfl, inner⟩
  | call f hu argument =>
    exact ⟨_, .call f.name_ne_nil f.isWordChar_of_mem_name hu rfl, _, _, rfl, argument, f, rfl, rfl⟩
  | @binary _ l s₁ s₂ r op a b j k hw hs₁ hs₂ hl hr left right hgroup hcall hearlier hfirst =>
    have hfree : FreeBelow op.rank w := freeBelow_iff.2 hearlier
    -- the symbol is neither in `l` nor half in it, so this is the first place
    have hinfix : ¬ op.symbol <:+: l ++ s₁ := fun hsymbol => by
      obtain ⟨x, y, hxy⟩ := hs₁.isInfix_of_append (fun c => op.isBlank_of_mem_symbol) hsymbol
      have : FreeBelow op.rank l := hfree.of_isInfix ⟨[], s₁ ++ op.symbol ++ s₂ ++ r, by simp [hw]⟩
      exact hfirst ⟨x, y, hxy.symm, this.alone hxy.symm⟩
    have hlast : ∀ c ∈ (l ++ s₁).getLast?, c ∉ op.symbol := by
      cases s₁ using List.reverseRecOn with
      | nil =>
        rw [List.append_nil]
        exact fun c hc hmem => left.last_not_mem c hc (Operator.mem_symbolChars hmem)
      | append_singleton s c =>
        rw [← List.append_assoc, List.getLast?_concat]
        rintro _ ⟨⟩ hmem
        have := hs₁ c (by simp)
        simp [Operator.isBlank_of_mem_symbol hmem] at this
    have hcut : op.cut w = some (l ++ s₁, s₂ ++ r) :=
      hfree.cut_eq_some (by simp [hw]) hinfix hlast
    have hliteral : ¬ w.IsLiteral := by
      rintro ⟨n, hn⟩
      obtain ⟨c, rest, hc⟩ := List.exists_cons_of_ne_nil op.symbol_ne_nil
      have := n.eq_nil_of_text_eq (p := l ++ s₁) (c := c) (r := rest ++ s₂ ++ r)
        (by simp [hn, hw, hc]) (op.not_digit_of_mem_symbol (by simp [hc]))
      exact left.ne_nil (List.append_eq_nil_iff.1 this).1
    refine ⟨_, .binary hliteral hcall hgroup hfree hcut, ?_⟩
    rw [hl.trimEnd_append hs₁, hr.trimStart_append hs₂]
    exact ⟨j, k, a, b, rfl, by rwa [hl], by rwa [hr], rfl⟩

theorem derives_of_recognized {c : Capture} (hw : Trimmed w) (hc : Recognized w c)
    (d : DerivesCapture v h c) : Derives w v h := by
  cases hc with
  | literal =>
    obtain ⟨rfl, n, rfl, rfl⟩ := d
    exact .literal n
  | call hname hword hinner heq =>
    obtain ⟨k, x, rfl, argument, f, rfl, rfl⟩ := d
    rw [heq]
    exact .call f hinner argument
  | group hinner heq =>
    obtain ⟨k, rfl, inner⟩ := d
    rw [heq]
    exact .group hinner inner
  | @binary op l₀ r₀ hliteral hcall hgroup hfree hcut =>
    obtain ⟨j, k, a, b, rfl, left, right, rfl⟩ := d
    obtain ⟨heq, -, -⟩ := Operator.cut_eq_some_iff.1 hcut
    obtain ⟨s₁, hs₁, hl₀⟩ := exists_trimEnd_append l₀
    obtain ⟨s₂, hs₂, hr₀⟩ := exists_append_trimStart r₀
    have hl : Trimmed (trimEnd l₀) := Trimmed.trimEnd_of_append (r := op.symbol ++ r₀)
      (by simpa [heq] using hw)
    have hr : Trimmed (trimStart r₀) := Trimmed.trimStart_of_append (l := l₀ ++ op.symbol)
      (by simpa [heq] using hw)
    rw [hl] at left
    rw [hr] at right
    have hfirst := (hfree.left_of_cut hcut).of_isInfix (trimEnd_isInfix l₀)
    refine .binary ?_ hs₁ hs₂ hl hr left right hgroup hcall (freeBelow_iff.1 hfree)
      (freeBelow_iff.1 hfirst op op.rank.lt_succ_self)
    rw [← hl₀, heq, List.append_assoc _ s₂, ← hr₀]

/-- A trimmed text is derived along what it is recognized as. -/
theorem derives_iff (hw : Trimmed w) :
    Derives w v h ↔ ∃ c, w.classify = some c ∧ DerivesCapture v h c := by
  simp only [classify_eq_some_iff]
  exact ⟨Derives.exists_recognized, fun ⟨_, hc, d⟩ => derives_of_recognized hw hc d⟩

/-! ## Evaluation follows derivations -/

/-- If runs over the parts give what is derived from them, the run over the whole does so too. -/
theorem result_runCapture_eq_ok_iff {limit depth : Nat} {c : Capture} (hle : depth ≤ limit)
    (ih : ∀ p ∈ c.parts, ∀ x, (run limit (depth + 1) p).result = .ok x ↔
      ∃ k, depth + 1 + k ≤ limit ∧ Derives (trim p) x k) :
    (runCapture limit depth c).result = .ok v ↔
      ∃ h, depth + h ≤ limit ∧ DerivesCapture v h c := by
  cases c with
  | literal u =>
    rw [runCapture, Traced.ofExcept, readLiteral_eq_ok_iff]
    constructor
    · rintro hn
      exact ⟨0, hle, rfl, hn⟩
    · rintro ⟨h, -, -, hn⟩
      exact hn
  | call name u =>
    simp only [runCapture, Traced.result_bind_eq_ok_iff, ih u (by simp [Capture.parts]),
      Traced.ofExcept, applyFunction_eq_ok_iff]
    constructor
    · rintro ⟨x, ⟨k, hk, d⟩, hf⟩
      exact ⟨k + 1, by omega, k, x, rfl, d, hf⟩
    · rintro ⟨h, hh, k, x, rfl, d, hf⟩
      exact ⟨x, ⟨k, by omega, d⟩, hf⟩
  | group u =>
    rw [runCapture, ih u (by simp [Capture.parts])]
    constructor
    · rintro ⟨k, hk, d⟩
      exact ⟨k + 1, by omega, k, rfl, d⟩
    · rintro ⟨h, hh, k, rfl, d⟩
      exact ⟨k, by omega, d⟩
  | binary l op r =>
    simp only [runCapture, Traced.result_bind_eq_ok_iff, ih l (by simp [Capture.parts]),
      ih r (by simp [Capture.parts]), Traced.ofExcept, Except.ok.injEq]
    constructor
    · rintro ⟨a, ⟨j, hj, dl⟩, b, ⟨k, hk, dr⟩, rfl⟩
      exact ⟨1 + max j k, by omega, j, k, a, b, rfl, dl, dr, rfl⟩
    · rintro ⟨h, hh, j, k, a, b, rfl, dl, dr, rfl⟩
      exact ⟨a, ⟨j, by omega, dl⟩, b, ⟨k, by omega, dr⟩, rfl⟩

/-- A run at some depth gives exactly the values derived within what is left of the limit. -/
theorem result_run_eq_ok_iff {limit depth : Nat} {text : Fragment} :
    (run limit depth text).result = .ok v ↔ ∃ h, depth + h ≤ limit ∧ Derives (trim text) v h := by
  induction text using Fragment.inductionOnParts generalizing depth v with
  | step text ih =>
    simp only [derives_iff (trimmed_trim text)]
    rcases run_cases limit depth text with ⟨hlt, hrun⟩ | ⟨-, hc, hrun⟩ | ⟨c, hle, hc, hrun⟩
    · rw [hrun]
      constructor
      · intro h
        cases h
      · rintro ⟨h, hh, -⟩
        omega
    · simp [hrun, hc, Traced.fail]
    · rw [hrun, hc, result_runCapture_eq_ok_iff hle fun p hp x => ih c hc p hp]
      simp

/-- A written numeral has its value at every limit. -/
theorem Numeral.evaluate_text (n : Numeral) (limit : Nat) : evaluate n.text limit = .ok n.value := by
  refine result_run_eq_ok_iff.2 ⟨0, Nat.zero_le _, ?_⟩
  rw [n.trimmed_text]
  exact .literal n

/-- No text has two values, nor derivations of two heights. -/
theorem Derives.unique {text : Fragment} {v' : Binary64} {h' : Nat} (d : Derives (trim text) v h)
    (d' : Derives (trim text) v' h') : v = v' ∧ h = h' := by
  induction text using Fragment.inductionOnParts generalizing v v' h h' with
  | step text ih =>
    obtain ⟨c, hc, d⟩ := (derives_iff (trimmed_trim text)).1 d
    obtain ⟨c', hc', d'⟩ := (derives_iff (trimmed_trim text)).1 d'
    cases hc.symm.trans hc'
    cases c with
    | literal u =>
      obtain ⟨rfl, hn⟩ := d
      obtain ⟨rfl, hn'⟩ := d'
      have := (readLiteral_eq_ok_iff.2 hn).symm.trans (readLiteral_eq_ok_iff.2 hn')
      exact ⟨Except.ok.inj this, rfl⟩
    | call name u =>
      obtain ⟨k, x, rfl, du, hf⟩ := d
      obtain ⟨k', x', rfl, du', hf'⟩ := d'
      obtain ⟨rfl, rfl⟩ := ih _ hc u (by simp [Capture.parts]) du du'
      have := (applyFunction_eq_ok_iff.2 hf).symm.trans (applyFunction_eq_ok_iff.2 hf')
      exact ⟨Except.ok.inj this, rfl⟩
    | group u =>
      obtain ⟨k, rfl, du⟩ := d
      obtain ⟨k', rfl, du'⟩ := d'
      obtain ⟨rfl, rfl⟩ := ih _ hc u (by simp [Capture.parts]) du du'
      exact ⟨rfl, rfl⟩
    | binary l op r =>
      obtain ⟨j, k, a, b, rfl, dl, dr, rfl⟩ := d
      obtain ⟨j', k', a', b', rfl, dl', dr', rfl⟩ := d'
      obtain ⟨rfl, rfl⟩ := ih _ hc l (by simp [Capture.parts]) dl dl'
      obtain ⟨rfl, rfl⟩ := ih _ hc r (by simp [Capture.parts]) dr dr'
      exact ⟨rfl, rfl⟩

/-- **The accepted language.** A text evaluates to a value exactly if it has a derivation of that
value whose height is within the limit, and no text has two derivations that differ in either. -/
theorem evaluate_eq_ok_iff_derives (text : Fragment) :
    (∀ limit v, evaluate text limit = .ok v ↔ ∃ h ≤ limit, Derives (trim text) v h) ∧
      ∀ v v' h h', Derives (trim text) v h → Derives (trim text) v' h' → v = v' ∧ h = h' := by
  refine ⟨fun limit v => ?_, fun v v' h h' d d' => d.unique d'⟩
  rw [evaluate, trace, result_run_eq_ok_iff]
  simp

end Reckoner
