import Reckoner.Proofs.Recognition

/-!
# Runs, step by step

A run over a fragment either stops at once, at the limit or because no rule accepts, or it records
one event and goes on with the parts.  Parts are shorter, so what holds of a fragment whenever it
holds of its parts holds of every fragment.
-/

namespace Reckoner

namespace Traced

variable {α β : Type}

theorem result_bind_eq_ok_iff {x : Traced α} {k : α → Traced β} {b : β} :
    (x >>= k).result = .ok b ↔ ∃ a, x.result = .ok a ∧ (k a).result = .ok b := by
  cases h : x.result with
  | ok a => simp [bind_of_ok h]
  | error e => simp [bind_of_error h]

theorem result_bind_eq_error_iff {x : Traced α} {k : α → Traced β} {e : EvalError} :
    (x >>= k).result = .error e ↔
      x.result = .error e ∨ ∃ a, x.result = .ok a ∧ (k a).result = .error e := by
  cases h : x.result with
  | ok a => simp [bind_of_ok h]
  | error e' => simp [bind_of_error h]

theorem mem_events_bind {x : Traced α} {k : α → Traced β} {e : Event} :
    e ∈ (x >>= k).events ↔ e ∈ x.events ∨ ∃ a, x.result = .ok a ∧ e ∈ (k a).events := by
  cases h : x.result with
  | ok a => simp [bind_of_ok h]
  | error e' => simp [bind_of_error h]

/-- What comes without events leaves none. -/
theorem events_bind_ofExcept {x : Traced α} {k : α → Except EvalError β} :
    (x >>= fun a => ofExcept (k a)).events = x.events := by
  cases h : x.result with
  | ok a => simp [bind_of_ok h, ofExcept]
  | error e => simp [bind_of_error h]

theorem result_bind_ofExcept {x : Traced α} {k : α → Except EvalError β} :
    (x >>= fun a => ofExcept (k a)).result = x.result >>= k := by
  cases h : x.result with
  | ok a => rw [bind_of_ok h]; rfl
  | error e => rw [bind_of_error h]; rfl

end Traced

variable {limit depth : Nat} {text : Fragment} {c : Capture}

/-- What a run does with a recognized fragment that lies `depth` fragments deep. -/
def runCapture (limit depth : Nat) : Capture → Traced Binary64
  | .literal value => .ofExcept (readLiteral value)
  | .call name argument => do
    let x ← run limit (depth + 1) argument
    .ofExcept (applyFunction name x)
  | .group inner => run limit (depth + 1) inner
  | .binary left op right => do
    let a ← run limit (depth + 1) left
    let b ← run limit (depth + 1) right
    .ofExcept (.ok (op.apply a b))

@[simp] theorem applyOperator_symbol (op : Operator) (a b : Binary64) :
    applyOperator op.symbol a b = .ok (op.apply a b) := by
  rw [applyOperator, Operator.ofSymbol?_symbol]

theorem applyFunction_eq_ok_iff {name : List Char} {x v : Binary64} :
    applyFunction name x = .ok v ↔ ∃ f : Function, f.name = name ∧ f.apply x = v := by
  constructor
  · intro h
    rw [applyFunction] at h
    split at h
    · next f hf =>
      have hname := List.find?_some hf
      exact ⟨f, by simpa using hname, Except.ok.inj h⟩
    · cases h
  · rintro ⟨f, rfl, rfl⟩
    rw [applyFunction, Function.ofName?_name]

theorem applyFunction_eq_error_iff {name : List Char} {x : Binary64} {e : EvalError} :
    applyFunction name x = .error e ↔
      (∀ f : Function, f.name ≠ name) ∧ e = .unknownFunction name := by
  constructor
  · intro h
    refine ⟨fun f hf => ?_, ?_⟩
    · cases h.symm.trans (applyFunction_eq_ok_iff.2 ⟨f, hf, rfl⟩)
    · rw [applyFunction] at h
      split at h
      · cases h
      · exact (Except.error.inj h).symm
  · rintro ⟨hunknown, rfl⟩
    cases h : applyFunction name x with
    | ok v =>
      obtain ⟨f, hf, -⟩ := applyFunction_eq_ok_iff.1 h
      exact absurd hf (hunknown f)
    | error e' =>
      rw [applyFunction] at h
      split at h <;> cases h
      rfl

theorem run_of_lt (h : limit < depth) : run limit depth text = .fail (.depthExceeded limit) := by
  rw [run, if_pos h]

theorem run_of_classify_eq_none (h : depth ≤ limit) (hc : Fragment.classify (trim text) = none) :
    run limit depth text = .fail (.noMatchingRule (trim text)) := by
  rw [run, if_neg (Nat.not_lt.2 h)]
  split <;> simp_all

theorem run_of_classify (h : depth ≤ limit) (hc : Fragment.classify (trim text) = some c) :
    run limit depth text = ⟨⟨c, trim text, depth⟩ :: (runCapture limit depth c).events,
      (runCapture limit depth c).result⟩ := by
  rw [run, if_neg (Nat.not_lt.2 h)]
  split
  · simp_all
  all_goals
    next h =>
    cases h.symm.trans hc
    simp only [Traced.emit_bind, runCapture, applyOperator_symbol]

/-- All that a run can do. -/
theorem run_cases (limit depth : Nat) (text : Fragment) :
    (limit < depth ∧ run limit depth text = .fail (.depthExceeded limit)) ∨
    (depth ≤ limit ∧ Fragment.classify (trim text) = none ∧
      run limit depth text = .fail (.noMatchingRule (trim text))) ∨
    ∃ c, depth ≤ limit ∧ Fragment.classify (trim text) = some c ∧
      run limit depth text = ⟨⟨c, trim text, depth⟩ :: (runCapture limit depth c).events,
        (runCapture limit depth c).result⟩ := by
  rcases Nat.lt_or_ge limit depth with hlt | hle
  · exact .inl ⟨hlt, run_of_lt hlt⟩
  cases hc : Fragment.classify (trim text) with
  | none => exact .inr (.inl ⟨hle, rfl, run_of_classify_eq_none hle hc⟩)
  | some c => exact .inr (.inr ⟨c, hle, rfl, run_of_classify hle hc⟩)

/-- What holds of a fragment whenever it holds of its parts holds of every fragment. -/
theorem Fragment.inductionOnParts {P : Fragment → Prop}
    (step : ∀ w : Fragment, (∀ c, Fragment.classify (trim w) = some c → ∀ p ∈ c.parts, P p) → P w)
    (w : Fragment) : P w := by
  induction hn : w.length using Nat.strongRecOn generalizing w with
  | ind n ih =>
    refine step w fun c hc p hp => ih p.length ?_ p rfl
    have := Fragment.length_lt_of_classify hc p hp
    have := length_trim_le w
    omega

/-- What is done with a recognized fragment leaves no events but those of the runs over its parts. -/
theorem mem_events_runCapture {e : Event} (h : e ∈ (runCapture limit depth c).events) :
    ∃ p ∈ c.parts, e ∈ (run limit (depth + 1) p).events := by
  cases c with
  | literal value => simp [runCapture, Traced.ofExcept] at h
  | call name argument =>
    rcases Traced.mem_events_bind.1 h with h | ⟨x, -, h⟩
    · exact ⟨argument, by simp [Capture.parts], h⟩
    · simp [Traced.ofExcept] at h
  | group inner => exact ⟨inner, by simp [Capture.parts], h⟩
  | binary left op right =>
    rcases Traced.mem_events_bind.1 h with h | ⟨a, -, h⟩
    · exact ⟨left, by simp [Capture.parts], h⟩
    rcases Traced.mem_events_bind.1 h with h | ⟨b, -, h⟩
    · exact ⟨right, by simp [Capture.parts], h⟩
    · simp [Traced.ofExcept] at h

/-- An event is that of the fragment itself or comes from the run over one of its parts. -/
theorem mem_events_run {e : Event} (h : e ∈ (run limit depth text).events) :
    ∃ c, Fragment.classify (trim text) = some c ∧ depth ≤ limit ∧
      (e = ⟨c, trim text, depth⟩ ∨ ∃ p ∈ c.parts, e ∈ (run limit (depth + 1) p).events) := by
  rcases run_cases limit depth text with ⟨-, hrun⟩ | ⟨-, -, hrun⟩ | ⟨c, hle, hc, hrun⟩
  · simp [hrun, Traced.fail] at h
  · simp [hrun, Traced.fail] at h
  · rw [hrun] at h
    rcases List.mem_cons.1 h with rfl | h
    · exact ⟨c, hc, hle, .inl rfl⟩
    · exact ⟨c, hc, hle, .inr (mem_events_runCapture h)⟩

/-- An event tells what its fragment is recognized as. -/
theorem classify_of_mem_events {e : Event} (h : e ∈ (run limit depth text).events) :
    e.fragment.classify = some e.capture := by
  induction text using Fragment.inductionOnParts generalizing depth with
  | step text ih =>
    obtain ⟨c, hc, -, rfl | ⟨p, hp, he⟩⟩ := mem_events_run h
    · exact hc
    · exact ih c hc p hp he

/-- Every recognized fragment is a piece of the text. -/
theorem fragment_isInfix_of_mem_events {e : Event} (h : e ∈ (run limit depth text).events) :
    e.fragment <:+: text := by
  induction text using Fragment.inductionOnParts generalizing depth with
  | step text ih =>
    obtain ⟨c, hc, -, rfl | ⟨p, hp, he⟩⟩ := mem_events_run h
    · exact trim_isInfix text
    · have hpart := (Fragment.classify_eq_some_iff.1 hc).part_isInfix p hp
      exact (ih c hc p hp he).trans (hpart.trans (trim_isInfix text))

theorem depth_le_of_mem_events {e : Event} (h : e ∈ (run limit depth text).events) :
    depth ≤ e.depth := by
  induction text using Fragment.inductionOnParts generalizing depth with
  | step text ih =>
    obtain ⟨c, hc, -, rfl | ⟨p, hp, he⟩⟩ := mem_events_run h
    · exact Nat.le_refl depth
    · exact (Nat.le_succ depth).trans (ih c hc p hp he)

end Reckoner
