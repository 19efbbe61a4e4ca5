import Reckoner.Proofs.Derivation

/-!
# Balanced parentheses

No rule of recognition looks whether parentheses match, but every derived text has them balanced: a
numeral holds none, and the other rules put balanced texts together.  So a cut inside parentheses,
which leaves some of them open, never leads to a value.
-/

namespace Reckoner

/-- No parenthesis closes before it is opened, and all are closed at the end. -/
structure Balanced (w : Fragment) : Prop where
  closed : w.count '(' = w.count ')'
  count_le_of_prefix : ∀ p, p <+: w → p.count ')' ≤ p.count '('

namespace Balanced

variable {u v w : Fragment}

theorem of_not_mem (ho : '(' ∉ w) (hc : ')' ∉ w) : Balanced w where
  closed := by rw [List.count_eq_zero.2 ho, List.count_eq_zero.2 hc]
  count_le_of_prefix p hp := by
    rw [List.count_eq_zero.2 fun h => hc (hp.subset h)]
    exact Nat.zero_le _

theorem append (hu : Balanced u) (hv : Balanced v) : Balanced (u ++ v) where
  closed := by rw [List.count_append, List.count_append, hu.closed, hv.closed]
  count_le_of_prefix p hp := by
    rcases List.prefix_or_prefix_of_prefix hp (List.prefix_append u v) with hpu | ⟨q, rfl⟩
    · exact hu.count_le_of_prefix p hpu
    · have hq : q <+: v := (List.prefix_append_right_inj u).1 hp
      rw [List.count_append, List.count_append, hu.closed]
      exact Nat.add_le_add_left (hv.count_le_of_prefix q hq) _

/-- Behind a balanced text, matched parentheses stay matched. -/
theorem count_eq_of_append (hu : Balanced u) (h : (u ++ v).count '(' = (u ++ v).count ')') :
    v.count '(' = v.count ')' := by
  simp only [List.count_append, hu.closed] at h
  omega

theorem wrap (hu : Balanced u) : Balanced ('(' :: (u ++ [')'])) where
  closed := by simp [hu.closed]
  count_le_of_prefix p hp := by
    cases p with
    | nil => simp
    | cons c q =>
      obtain ⟨rfl, hq⟩ := List.cons_prefix_cons.1 hp
      rcases List.prefix_concat_iff.1 hq with rfl | hq
      · simp [hu.closed]
      · have := hu.count_le_of_prefix q hq
        simp only [List.count_cons, beq_iff_eq, Char.reduceEq, if_true, if_false]
        omega

theorem of_blanks {s : Fragment} (hs : Blanks s) : Balanced s :=
  of_not_mem (hs.not_mem (by decide)) (hs.not_mem (by decide))

theorem of_isWordChar {name : Fragment} (h : ∀ c ∈ name, isWordChar c) : Balanced name :=
  of_not_mem (fun hm => absurd (h _ hm) (by decide)) (fun hm => absurd (h _ hm) (by decide))

theorem symbol (op : Operator) : Balanced op.symbol := by
  cases op <;> exact of_not_mem (by decide) (by decide)

theorem of_trim (h : Balanced (trim w)) : Balanced w := by
  obtain ⟨s, t, hs, ht, hw⟩ := exists_append_trim_append w
  rw [hw]
  exact ((of_blanks hs).append h).append (of_blanks ht)

/-- Where the parentheses opened before it are closed, an operator's symbol does not stand between
the parentheses of a call or a group, nor in the name before them. -/
theorem ne_append_cons {name p x : Fragment} {c : Char} {op : Operator}
    (hname : ∀ c ∈ name, isWordChar c) (hu : Balanced u) (hp : p.count '(' = p.count ')')
    (hc : c ∈ op.symbol) : name ++ '(' :: (u ++ [')']) ≠ p ++ c :: x := by
  intro h
  have hopen := op.ne_open_of_mem_symbol hc
  rcases List.append_eq_append_iff.1 h with ⟨q, rfl, hq⟩ | ⟨m, rfl, hm⟩
  · cases q with
    | nil => exact hopen (List.cons.inj hq).1.symm
    | cons d q =>
      obtain ⟨rfl, hq⟩ := List.cons.inj hq
      -- what stands before the symbol leaves the first parenthesis open
      have hqu : q <+: u := by
        have : q ++ [c] <+: u ++ [')'] := ⟨x, by simpa using hq.symm⟩
        rcases List.prefix_concat_iff.1 this with heq | hpre
        · exact absurd (List.append_inj' heq rfl).2 (by simpa using op.ne_close_of_mem_symbol hc)
        · exact (List.prefix_append q [c]).trans hpre
      have := hu.count_le_of_prefix q hqu
      have hbal := (of_isWordChar hname).closed
      simp only [List.count_append, List.count_cons, beq_iff_eq, Char.reduceEq, if_true,
        if_false] at hp
      omega
  · cases m with
    | nil => exact hopen (List.cons.inj hm).1
    | cons d m =>
      obtain ⟨rfl, -⟩ := List.cons.inj hm
      exact absurd (hname c (by simp)) (by simp [op.isWordChar_of_mem_symbol hc])

end Balanced

theorem Numeral.balanced_text (n : Numeral) : Balanced n.text := by
  refine Balanced.of_not_mem (fun hm => ?_) (fun hm => ?_)
  all_goals
    have := n.of_mem_text hm
    revert this
    decide

/-- Every derived text has its parentheses balanced. -/
theorem Derives.balanced {w : Fragment} {v : Binary64} {h : Nat} (d : Derives w v h) :
    Balanced w := by
  induction d with
  | literal n => exact n.balanced_text
  | group _ _ ih => exact ih.of_trim.wrap
  | call f _ _ ih => exact (Balanced.of_isWordChar f.isWordChar_of_mem_name).append ih.of_trim.wrap
  | @binary w l s₁ s₂ r op a b j k hw hs₁ hs₂ _ _ _ _ _ _ _ _ ihl ihr =>
    rw [hw]
    exact (((ihl.append (.of_blanks hs₁)).append (.symbol op)).append (.of_blanks hs₂)).append ihr

end Reckoner
