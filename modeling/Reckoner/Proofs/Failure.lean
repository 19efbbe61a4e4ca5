import Reckoner.Proofs.Run

/-!
# What stops an evaluation

An evaluation fails for one of three reasons: a fragment lies too deep, a called name is not that of
a function, or a fragment is not recognized.  The error of a part is the error of the whole, and
what it is about is a piece of the whole as well.  As the operators of two characters catch what the
lone `*` and `/` leave out, a fragment that is not recognized holds no part of a symbol.
-/

namespace Reckoner

open Fragment

/-- The errors that a text can lead to, and what they are about. -/
inductive Fault (limit : Nat) (text : Fragment) : EvalError → Prop
  | depthExceeded : Fault limit text (.depthExceeded limit)
  | unknownFunction {name : List Char} (hname : name ≠ []) (hword : ∀ c ∈ name, isWordChar c)
      (hunknown : ∀ f : Function, f.name ≠ name) (h : name ++ ['('] <:+: text) :
      Fault limit text (.unknownFunction name)
  | noMatchingRule {v : Fragment} (h : v <:+: text) (htrimmed : Trimmed v)
      (hsymbol : ∀ c ∈ Operator.symbolChars, c ∉ v) (hliteral : ¬ v.IsLiteral)
      (hcall : ¬ v.IsCall) (hgroup : ¬ v.IsGroup) : Fault limit text (.noMatchingRule v)

variable {limit depth : Nat} {text : Fragment} {c : Capture} {e : EvalError}

namespace Fault

/-- What is at fault in a piece is at fault in the whole. -/
theorem of_isInfix {piece : Fragment} (h : Fault limit piece e) (hp : piece <:+: text) :
    Fault limit text e := by
  cases h with
  | depthExceeded => exact .depthExceeded
  | unknownFunction hname hword hunknown h =>
    exact .unknownFunction hname hword hunknown (h.trans hp)
  | noMatchingRule h htrimmed hsymbol hliteral hcall hgroup =>
    exact .noMatchingRule (h.trans hp) htrimmed hsymbol hliteral hcall hgroup

theorem of_classify_eq_none (h : Fragment.classify (trim text) = none) :
    Fault limit text (.noMatchingRule (trim text)) := by
  obtain ⟨hliteral, hcall, hgroup, hsymbol⟩ := classify_eq_none_iff.1 h
  exact .noMatchingRule (trim_isInfix text) (trimmed_trim text) hsymbol hliteral hcall hgroup

end Fault

/-- What is done with a recognized fragment fails with a part, or at the name of a call. -/
theorem result_runCapture_eq_error {w : Fragment} (hc : Recognized w c)
    (h : (runCapture limit depth c).result = .error e) :
    (∃ p ∈ c.parts, (run limit (depth + 1) p).result = .error e) ∨
      ∃ name argument, c = .call name argument ∧ (∀ f : Function, f.name ≠ name) ∧
        e = .unknownFunction name := by
  cases hc with
  | literal hn =>
    obtain ⟨n, rfl⟩ := hn
    cases n.readLiteral_text.symm.trans h
  | @call name inner =>
    rcases Traced.result_bind_eq_error_iff.1 h with h | ⟨x, -, h⟩
    · exact .inl ⟨inner, by simp [Capture.parts], h⟩
    · exact .inr ⟨name, inner, rfl, applyFunction_eq_error_iff.1 h⟩
  | @group inner => exact .inl ⟨inner, by simp [Capture.parts], h⟩
  | @binary op l r =>
    rcases Traced.result_bind_eq_error_iff.1 h with h | ⟨a, -, h⟩
    · exact .inl ⟨trimEnd l, by simp [Capture.parts], h⟩
    rcases Traced.result_bind_eq_error_iff.1 h with h | ⟨b, -, h⟩
    · exact .inl ⟨trimStart r, by simp [Capture.parts], h⟩
    · cases h

theorem fault_of_run (h : (run limit depth text).result = .error e) : Fault limit text e := by
  induction text using Fragment.inductionOnParts generalizing depth with
  | step text ih =>
    rcases run_cases limit depth text with ⟨-, hrun⟩ | ⟨-, hc, hrun⟩ | ⟨c, -, hc, hrun⟩ <;>
      rw [hrun] at h
    · cases h
      exact .depthExceeded
    · cases h
      exact .of_classify_eq_none hc
    · have hrec := classify_eq_some_iff.1 hc
      rcases result_runCapture_eq_error hrec h with ⟨p, hp, h⟩ | ⟨name, u, rfl, hunknown, rfl⟩
      · exact (ih c hc p hp h).of_isInfix ((hrec.part_isInfix p hp).trans (trim_isInfix text))
      · cases hrec with
        | call hname hword hinner heq =>
          have hpiece : name ++ ['('] <:+: trim text := ⟨[], u ++ [')'], by simp [heq]⟩
          exact .unknownFunction hname hword hunknown (hpiece.trans (trim_isInfix text))

/-- **What evaluation can fail with.** An error is about the limit, or about a name in front of a
parenthesis of the text that is not that of a function, or about a trimmed piece of the text that
has none of the shapes and holds no part of a symbol.  Operators are never unknown and numbers never
malformed. -/
theorem fault_of_evaluate (h : evaluate text limit = .error e) :
    Fault limit text e ∧ (∀ symbol, e ≠ .unknownOperator symbol) ∧ ∀ v, e ≠ .malformedNumber v := by
  have hfault := fault_of_run h
  refine ⟨hfault, fun symbol he => ?_, fun v he => ?_⟩
  all_goals
    subst he
    cases hfault

/-- In front of the run of stars, which is cut behind two of them, stands no numeral. -/
theorem fault_of_evaluate_stars :
    evaluate " x *** f(3)".toList 256 = .error (.noMatchingRule "x".toList) ∧
      Fault 256 " x *** f(3)".toList (.noMatchingRule "x".toList) := by
  have hwhole : Fragment.classify (trim " x *** f(3)".toList) =
      some (.binary "x".toList .pow "* f(3)".toList) := by decide
  have hleft : (run 256 1 "x".toList).result = .error (.noMatchingRule "x".toList) :=
    congrArg Traced.result (run_of_classify_eq_none (by decide) (by decide))
  have herror : evaluate " x *** f(3)".toList 256 = .error (.noMatchingRule "x".toList) := by
    rw [evaluate, trace, run_of_classify (Nat.zero_le 256) hwhole, runCapture,
      Traced.bind_of_error hleft]
  exact ⟨herror, (fault_of_evaluate herror).1⟩

end Reckoner
