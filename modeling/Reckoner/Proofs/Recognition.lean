import Reckoner.Proofs.Numeral
import Reckoner.Proofs.Occurrence

/-!
# What recognition finds

Each rule is described by the texts that it accepts, and the first rule that accepts by the relation
`Recognized`: its cases are what a proof about a recognized fragment has to look at.
-/

namespace Reckoner

namespace Operator

/-- Searching through the trial order finds what no operator of a lower rank gives. -/
theorem findSome?_trialOrder_eq_some_iff {α : Type} {f : Operator → Option α} {a : α} :
    trialOrder.findSome? f = some a ↔
      ∃ op, f op = some a ∧ ∀ op', op'.rank < op.rank → f op' = none := by
  have hsorted := pairwise_rank_trialOrder
  rw [List.findSome?_eq_some_iff]
  constructor
  · rintro ⟨earlier, op, later, horder, hop, hearlier⟩
    rw [horder, List.pairwise_append, List.pairwise_cons] at hsorted
    refine ⟨op, hop, fun op' hrank => ?_⟩
    have hmem := op'.mem_trialOrder
    rw [horder, List.mem_append, List.mem_cons] at hmem
    rcases hmem with hmem | rfl | hmem
    · exact hearlier op' hmem
    · exact absurd hrank (Nat.lt_irrefl _)
    · exact absurd hrank (Nat.lt_asymm (hsorted.2.1.1 op' hmem))
  · rintro ⟨op, hop, hearlier⟩
    obtain ⟨earlier, later, horder⟩ := List.append_of_mem op.mem_trialOrder
    rw [horder, List.pairwise_append] at hsorted
    exact ⟨earlier, op, later, horder, hop, fun op' hmem =>
      hearlier op' (hsorted.2.2 op' hmem op List.mem_cons_self)⟩

end Operator

namespace Fragment

variable {w : Fragment} {c : Capture}

/-! ## The shapes -/

/-- A numeral from end to end. -/
def IsLiteral (w : Fragment) : Prop := ∃ n : Numeral, n.text = w

/-- Word characters, and behind them parentheses around something, up to the end. -/
def IsCall (w : Fragment) : Prop :=
  ∃ name inner, name ≠ [] ∧ (∀ c ∈ name, isWordChar c) ∧ inner ≠ [] ∧
    w = name ++ '(' :: (inner ++ [')'])

/-- Parentheses around something, at both ends. -/
def IsGroup (w : Fragment) : Prop := ∃ inner, inner ≠ [] ∧ w = '(' :: (inner ++ [')'])

theorem closed?_eq_some_iff {inner : Fragment} :
    w.closed? = some inner ↔ inner ≠ [] ∧ w = inner ++ [')'] := by
  rw [closed?]
  constructor
  · intro h
    split at h
    · next hc =>
      cases h
      exact ⟨hc.2, (List.dropLast_append_getLast? _ hc.1).symm⟩
    · cases h
  · rintro ⟨hne, rfl⟩
    simp [hne]

theorem isWordChar_paren : isWordChar '(' = false := by decide

theorem call?_eq_some_iff : w.call? = some c ↔ ∃ name inner, name ≠ [] ∧
    (∀ c ∈ name, isWordChar c) ∧ inner ≠ [] ∧ w = name ++ '(' :: (inner ++ [')']) ∧
      c = .call name inner := by
  rw [call?]
  constructor
  · intro h
    have hw := List.takeWhile_append_dropWhile (p := (· ≠ '(')) (l := w)
    split at h
    · cases h
    · next first rest hdrop =>
      split at h
      · next hname =>
        obtain ⟨inner, hclosed, rfl⟩ := Option.map_eq_some_iff.1 h
        obtain ⟨hne, rfl⟩ := closed?_eq_some_iff.1 hclosed
        have hfirst : first = '(' := by
          have := List.head?_dropWhile_not (fun x => decide (x ≠ '(')) w
          rw [hdrop] at this
          simpa using this
        refine ⟨_, inner, hname.1, by simpa using hname.2, hne, ?_, rfl⟩
        rw [hdrop, hfirst] at hw
        exact hw.symm
      · cases h
  · rintro ⟨name, inner, hname, hword, hne, rfl, rfl⟩
    have hparen : ∀ c ∈ name, decide (c ≠ '(') = true := by
      intro c hc
      rw [decide_eq_true_iff]
      rintro rfl
      simpa [isWordChar_paren] using hword '(' hc
    rw [List.takeWhile_append_of_pos hparen, List.dropWhile_append_of_pos hparen]
    have hclosed : closed? (inner ++ [')']) = some inner := closed?_eq_some_iff.2 ⟨hne, rfl⟩
    have hall : name.all isWordChar = true := by simpa using hword
    simp [hclosed, hname, hall]

theorem group?_eq_some_iff :
    w.group? = some c ↔ ∃ inner, inner ≠ [] ∧ w = '(' :: (inner ++ [')']) ∧ c = .group inner := by
  constructor
  · intro h
    unfold group? at h
    split at h
    · obtain ⟨inner, hclosed, rfl⟩ := Option.map_eq_some_iff.1 h
      obtain ⟨hne, rfl⟩ := closed?_eq_some_iff.1 hclosed
      exact ⟨inner, hne, rfl, rfl⟩
    · cases h
  · rintro ⟨inner, hne, rfl, rfl⟩
    rw [group?, closed?_eq_some_iff.2 ⟨hne, rfl⟩]
    rfl

theorem call?_eq_none_iff : w.call? = none ↔ ¬ w.IsCall := by
  rw [Option.eq_none_iff_forall_ne_some]
  constructor
  · rintro h ⟨name, inner, hname, hword, hne, hw⟩
    exact h _ (call?_eq_some_iff.2 ⟨name, inner, hname, hword, hne, hw, rfl⟩)
  · rintro h c hc
    obtain ⟨name, inner, hname, hword, hne, hw, -⟩ := call?_eq_some_iff.1 hc
    exact h ⟨name, inner, hname, hword, hne, hw⟩

theorem group?_eq_none_iff : w.group? = none ↔ ¬ w.IsGroup := by
  rw [Option.eq_none_iff_forall_ne_some]
  constructor
  · rintro h ⟨inner, hne, hw⟩
    exact h _ (group?_eq_some_iff.2 ⟨inner, hne, hw, rfl⟩)
  · rintro h c hc
    obtain ⟨inner, hne, hw, -⟩ := group?_eq_some_iff.1 hc
    exact h ⟨inner, hne, hw⟩

theorem literal?_eq_none_iff : w.literal? = none ↔ ¬ w.IsLiteral := by
  rw [Option.eq_none_iff_forall_ne_some]
  exact ⟨fun h hn => h w (literal?_eq_some_iff.2 ⟨rfl, hn⟩),
    fun h v hv => h (literal?_eq_some_iff.1 hv).2⟩

/-! ## The first rule that accepts -/

/-- What the first rule in the trial order that accepts the fragment makes of it. -/
inductive Recognized (w : Fragment) : Capture → Prop
  | literal (h : w.IsLiteral) : Recognized w (.literal w)
  | call {name inner : Fragment} (hname : name ≠ []) (hword : ∀ c ∈ name, isWordChar c)
      (hinner : inner ≠ []) (h : w = name ++ '(' :: (inner ++ [')'])) :
      Recognized w (.call name inner)
  | group {inner : Fragment} (hinner : inner ≠ []) (h : w = '(' :: (inner ++ [')'])) :
      Recognized w (.group inner)
  | binary {op : Operator} {left right : Fragment} (hliteral : ¬ w.IsLiteral) (hcall : ¬ w.IsCall)
      (hgroup : ¬ w.IsGroup) (hfree : FreeBelow op.rank w) (hcut : op.cut w = some (left, right)) :
      Recognized w (.binary (trimEnd left) op (trimStart right))

/-- Parentheses tell calls and groups from numerals. -/
theorem IsLiteral.paren_not_mem (h : w.IsLiteral) : '(' ∉ w := by
  obtain ⟨n, rfl⟩ := h
  intro hmem
  have := n.of_mem_text hmem
  revert this
  decide

theorem IsCall.paren_mem (h : w.IsCall) : '(' ∈ w := by
  obtain ⟨name, inner, -, -, -, rfl⟩ := h
  simp

theorem IsGroup.paren_mem (h : w.IsGroup) : '(' ∈ w := by
  obtain ⟨inner, -, rfl⟩ := h
  simp

/-- A name comes before the first parenthesis of a call, and nothing before that of a group. -/
theorem IsGroup.not_isCall (h : w.IsGroup) : ¬ w.IsCall := by
  obtain ⟨inner, -, rfl⟩ := h
  rintro ⟨name, inner', hname, hword, -, h⟩
  cases name with
  | nil => exact hname rfl
  | cons c name =>
    obtain ⟨rfl, -⟩ := List.cons.inj h
    simpa [isWordChar_paren] using hword '(' (by simp)

/-- Before the first parenthesis of a call stands its name only. -/
theorem not_isCall_of_append_cons {u v : Fragment} {d : Char} (hu : '(' ∉ u) (hd : d ≠ '(')
    (hword : isWordChar d = false) : ¬ IsCall (u ++ d :: v) := by
  rintro ⟨name, inner, -, hname, -, h⟩
  rcases List.append_eq_append_iff.1 h with ⟨m, rfl, hm⟩ | ⟨m, rfl, hm⟩
  · cases m with
    | nil => exact hd (List.cons.inj hm).1
    | cons e m =>
      obtain ⟨rfl, -⟩ := List.cons.inj hm
      simp [hname d (by simp)] at hword
  · cases m with
    | nil => exact hd (List.cons.inj hm).1.symm
    | cons e m =>
      obtain ⟨rfl, -⟩ := List.cons.inj hm
      simp at hu

theorem IsGroup.head?_eq (h : w.IsGroup) : w.head? = some '(' := by
  obtain ⟨inner, -, rfl⟩ := h
  rfl

theorem IsGroup.getLast?_eq (h : w.IsGroup) : w.getLast? = some ')' := by
  obtain ⟨inner, -, rfl⟩ := h
  simp [List.getLast?_cons]

theorem IsCall.getLast?_eq (h : w.IsCall) : w.getLast? = some ')' := by
  obtain ⟨name, inner, -, -, -, rfl⟩ := h
  simp [List.getLast?_cons]

theorem classify_eq (w : Fragment) : w.classify =
    (w.literal?.map .literal).or (w.call?.or (w.group?.or
      (Operator.trialOrder.findSome? (binary? · w)))) := by
  simp only [classify, Kind.trialOrder, List.cons_append, List.nil_append, List.findSome?_cons,
    Kind.recognize]
  cases w.literal? <;> cases w.call? <;> cases w.group? <;> rfl

theorem findSome?_binary?_eq_some_iff :
    Operator.trialOrder.findSome? (binary? · w) = some c ↔ ∃ op left right,
      FreeBelow op.rank w ∧ op.cut w = some (left, right) ∧
        c = .binary (trimEnd left) op (trimStart right) := by
  have hnone : ∀ op : Operator, binary? op w = none ↔ ¬ op.OccursIn w := fun op => by
    rw [binary?, Option.map_eq_none_iff, Operator.cut_eq_none_iff]
  simp only [Operator.findSome?_trialOrder_eq_some_iff, hnone, ← freeBelow_iff]
  constructor
  · rintro ⟨op, hop, hfree⟩
    obtain ⟨⟨left, right⟩, hcut, rfl⟩ := Option.map_eq_some_iff.1 hop
    exact ⟨op, left, right, hfree, hcut, rfl⟩
  · rintro ⟨op, left, right, hfree, hcut, rfl⟩
    exact ⟨op, by rw [binary?, hcut]; rfl, hfree⟩

theorem classify_eq_some_iff : w.classify = some c ↔ Recognized w c := by
  rw [classify_eq]
  constructor
  · intro h
    rcases Option.or_eq_some_iff.1 h with h | ⟨hliteral, h⟩
    · obtain ⟨v, hv, rfl⟩ := Option.map_eq_some_iff.1 h
      obtain ⟨rfl, hn⟩ := literal?_eq_some_iff.1 hv
      exact .literal hn
    rcases Option.or_eq_some_iff.1 h with h | ⟨hcall, h⟩
    · obtain ⟨name, inner, hname, hword, hinner, hw, rfl⟩ := call?_eq_some_iff.1 h
      exact .call hname hword hinner hw
    rcases Option.or_eq_some_iff.1 h with h | ⟨hgroup, h⟩
    · obtain ⟨inner, hinner, hw, rfl⟩ := group?_eq_some_iff.1 h
      exact .group hinner hw
    obtain ⟨op, left, right, hfree, hcut, rfl⟩ := findSome?_binary?_eq_some_iff.1 h
    exact .binary (literal?_eq_none_iff.1 (Option.map_eq_none_iff.1 hliteral))
      (call?_eq_none_iff.1 hcall) (group?_eq_none_iff.1 hgroup) hfree hcut
  · intro h
    cases h with
    | literal hn =>
      rw [literal?_eq_some_iff.2 ⟨rfl, hn⟩]
      rfl
    | call hname hword hinner hw =>
      have hliteral : ¬ w.IsLiteral := fun hn =>
        hn.paren_not_mem (IsCall.paren_mem ⟨_, _, hname, hword, hinner, hw⟩)
      rw [literal?_eq_none_iff.2 hliteral,
        call?_eq_some_iff.2 ⟨_, _, hname, hword, hinner, hw, rfl⟩]
      rfl
    | group hinner hw =>
      have hgroup : w.IsGroup := ⟨_, hinner, hw⟩
      rw [literal?_eq_none_iff.2 fun hn => hn.paren_not_mem hgroup.paren_mem,
        call?_eq_none_iff.2 hgroup.not_isCall, group?_eq_some_iff.2 ⟨_, hinner, hw, rfl⟩]
      rfl
    | binary hliteral hcall hgroup hfree hcut =>
      rw [literal?_eq_none_iff.2 hliteral, call?_eq_none_iff.2 hcall,
        group?_eq_none_iff.2 hgroup]
      exact findSome?_binary?_eq_some_iff.2 ⟨_, _, _, hfree, hcut, rfl⟩

/-- Besides the shapes, only a text without any part of a symbol is not recognized. -/
theorem classify_eq_none_iff : w.classify = none ↔
    ¬ w.IsLiteral ∧ ¬ w.IsCall ∧ ¬ w.IsGroup ∧ ∀ c ∈ Operator.symbolChars, c ∉ w := by
  have hbinary : Operator.trialOrder.findSome? (binary? · w) = none ↔
      ∀ op : Operator, ¬ op.OccursIn w := by
    simp [List.findSome?_eq_none_iff, Operator.mem_trialOrder, binary?, Operator.cut_eq_none_iff]
  rw [classify_eq, Option.or_eq_none_iff, Option.or_eq_none_iff, Option.or_eq_none_iff,
    Option.map_eq_none_iff, literal?_eq_none_iff, call?_eq_none_iff, group?_eq_none_iff, hbinary,
    Operator.forall_not_occursIn_iff]

theorem Recognized.unique {c' : Capture} (h : Recognized w c) (h' : Recognized w c') : c = c' :=
  Option.some.inj ((classify_eq_some_iff.2 h).symm.trans (classify_eq_some_iff.2 h'))

/-! ## Parts -/

/-- Every part is a piece of the fragment. -/
theorem Recognized.part_isInfix (h : Recognized w c) : ∀ p ∈ c.parts, p <:+: w := by
  cases h with
  | literal => simp [Capture.parts]
  | @call name inner hname hword hinner hw =>
    simp only [Capture.parts, List.mem_singleton, forall_eq]
    exact ⟨name ++ ['('], [')'], by simp [hw]⟩
  | @group inner hinner hw =>
    simp only [Capture.parts, List.mem_singleton, forall_eq]
    exact ⟨['('], [')'], by simp [hw]⟩
  | @binary op left right hliteral hcall hgroup hfree hcut =>
    obtain ⟨hw, -⟩ := Operator.cut_eq_some_iff.1 hcut
    have hleft : left <:+: w := ⟨[], op.symbol ++ right, by simp [hw]⟩
    have hright : right <:+: w := ⟨left ++ op.symbol, [], by simp [hw]⟩
    simp only [Capture.parts, List.mem_cons, List.not_mem_nil, or_false, forall_eq_or_imp,
      forall_eq]
    exact ⟨(trimEnd_isInfix left).trans hleft, (trimStart_isInfix right).trans hright⟩

end Fragment

end Reckoner
