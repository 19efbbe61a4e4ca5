import Reckoner.Proofs.Run

/-!
# The trial order in a run

A fragment is cut at an operator when no operator before it in the trial order stands alone in it.
Then no symbol of these is in the fragment at all, and so in none of its pieces: whatever is cut
below a fragment is cut at an operator that does not come earlier.
-/

namespace Reckoner

variable {limit depth : Nat} {text : Fragment} {c : Capture}

/-! ## What lies below an event -/

/-- Each event is followed by the events of what is done with it, and then by one that does not lie
deeper. -/
def Nested (limit : Nat) (events : List Event) : Prop :=
  ∀ before e after, events = before ++ e :: after →
    ∃ rest, after = (runCapture limit e.depth e.capture).events ++ rest ∧
      ∀ f ∈ rest.head?, f.depth ≤ e.depth

namespace Nested

variable {events later : List Event}

theorem nil : Nested limit [] := by
  intro before e after h
  simp at h

theorem cons {e : Event} (he : events = (runCapture limit e.depth e.capture).events)
    (h : Nested limit events) : Nested limit (e :: events) := by
  intro before f after hf
  rcases before with _ | ⟨e', before⟩
  · cases hf
    exact ⟨[], by simp [he], by simp⟩
  · exact h before f after (List.cons.inj hf).2

/-- Events may follow that lie no deeper than any before them. -/
theorem append (h : Nested limit events) (h' : Nested limit later)
    (hdepth : ∀ e ∈ events, ∀ f ∈ later.head?, f.depth ≤ e.depth) :
    Nested limit (events ++ later) := by
  intro before e after he
  rcases List.append_eq_append_iff.1 he with ⟨m, -, hm⟩ | ⟨m, hm, hafter⟩
  · exact h' m e after hm
  cases m with
  | nil => exact h' [] e after hafter.symm
  | cons e' m =>
    obtain ⟨rfl, rfl⟩ := List.cons.inj hafter
    obtain ⟨rest, rfl, hrest⟩ := h before e m hm
    refine ⟨rest ++ later, List.append_assoc _ _ _, fun f hf => ?_⟩
    cases rest with
    | nil => exact hdepth e (by simp [hm]) f hf
    | cons g rest => exact hrest f hf

end Nested

theorem depth_eq_of_head? {e : Event} (h : e ∈ (run limit depth text).events.head?) :
    e.depth = depth := by
  rcases run_cases limit depth text with ⟨-, hrun⟩ | ⟨-, -, hrun⟩ | ⟨c, -, -, hrun⟩ <;>
    rw [hrun] at h <;> cases h
  rfl

theorem nested_runCapture (ih : ∀ p ∈ c.parts, Nested limit (run limit (depth + 1) p).events) :
    Nested limit (runCapture limit depth c).events := by
  cases c with
  | literal value => exact .nil
  | call name argument =>
    rw [runCapture, Traced.events_bind_ofExcept]
    exact ih argument (by simp [Capture.parts])
  | group inner => exact ih inner (by simp [Capture.parts])
  | binary left op right =>
    have hleft := ih left (by simp [Capture.parts])
    have hright := ih right (by simp [Capture.parts])
    rw [runCapture]
    cases hres : (run limit (depth + 1) left).result with
    | error e =>
      rw [Traced.bind_of_error hres]
      exact hleft
    | ok a =>
      rw [Traced.bind_of_ok hres, Traced.events_bind_ofExcept]
      refine hleft.append hright fun e he f hf => ?_
      rw [depth_eq_of_head? hf]
      exact depth_le_of_mem_events he

theorem nested_run : Nested limit (run limit depth text).events := by
  induction text using Fragment.inductionOnParts generalizing depth with
  | step text ih =>
    rcases run_cases limit depth text with ⟨-, hrun⟩ | ⟨-, -, hrun⟩ | ⟨c, -, hc, hrun⟩ <;>
      rw [hrun]
    · exact .nil
    · exact .nil
    · exact .cons rfl (nested_runCapture fun p hp => ih c hc p hp)

/-- The events behind an event that lie deeper are those of what is done with it. -/
theorem takeWhile_events {before after : List Event} {e : Event}
    (h : (run limit depth text).events = before ++ e :: after) :
    after.takeWhile (e.depth < ·.depth) = (runCapture limit e.depth e.capture).events := by
  obtain ⟨rest, rfl, hrest⟩ := nested_run before e after h
  have hdeep : ∀ f ∈ (runCapture limit e.depth e.capture).events, decide (e.depth < f.depth) := by
    intro f hf
    obtain ⟨p, -, hp⟩ := mem_events_runCapture hf
    exact decide_eq_true (depth_le_of_mem_events hp)
  rw [List.takeWhile_append_of_pos hdeep]
  cases rest with
  | nil => simp
  | cons f rest => simp [hrest f rfl]

/-- The right operand is reached unless the left one fails. -/
theorem events_runCapture_binary_isPrefix {left right : Fragment} {op : Operator} :
    (runCapture limit depth (.binary left op right)).events <+:
      (run limit (depth + 1) left).events ++ (run limit (depth + 1) right).events := by
  rw [runCapture]
  cases hres : (run limit (depth + 1) left).result with
  | error e =>
    rw [Traced.bind_of_error hres]
    exact List.prefix_append _ _
  | ok a =>
    refine ⟨[], ?_⟩
    rw [List.append_nil, Traced.bind_of_ok hres, Traced.events_bind_ofExcept]

/-! ## Operators below a cut -/

namespace Fragment

variable {v w : Fragment}

/-- The trimmed fragments that taking a text apart leads to, that of the whole text included. -/
inductive Within : Fragment → Fragment → Prop
  | self (w : Fragment) : Within (trim w) w
  | part {v w p : Fragment} {c : Capture} (hc : Fragment.classify (trim w) = some c)
      (hp : p ∈ c.parts) (h : Within v p) : Within v w

theorem Within.isInfix (h : Within v w) : v <:+: w := by
  induction h with
  | self w => exact trim_isInfix w
  | @part v w p c hc hp _ ih =>
    have hpart := (classify_eq_some_iff.1 hc).part_isInfix p hp
    exact ih.trans (hpart.trans (trim_isInfix w))

/-- A cut leaves no symbol of an earlier operator, and on its left no symbol of its own. -/
theorem Recognized.freeBelow {left right : Fragment} {op : Operator}
    (h : Recognized w (.binary left op right)) :
    FreeBelow (op.rank + 1) left ∧ FreeBelow op.rank right := by
  cases h with
  | @binary _ l r _ _ _ hfree hcut =>
    obtain ⟨hw, -⟩ := Operator.cut_eq_some_iff.1 hcut
    have hright : r <:+: w := ⟨l ++ op.symbol, [], by simp [hw]⟩
    exact ⟨(hfree.left_of_cut hcut).of_isInfix (trimEnd_isInfix l),
      hfree.of_isInfix ((trimStart_isInfix r).trans hright)⟩

end Fragment

/-- A run over a text without the symbols up to a rank cuts at none of these operators. -/
theorem FreeBelow.le_rank_of_mem_events {k : Nat} {e : Event} {left right : Fragment}
    {op : Operator} (h : FreeBelow k text) (he : e ∈ (run limit depth text).events)
    (hc : e.capture = .binary left op right) : k ≤ op.rank := by
  have hclassify := classify_of_mem_events he
  rw [hc, Fragment.classify_eq_some_iff] at hclassify
  cases hclassify with
  | binary _ _ _ _ hcut =>
    obtain ⟨hw, -⟩ := Operator.cut_eq_some_iff.1 hcut
    have hsymbol : op.symbol <:+: e.fragment := ⟨_, _, hw.symm⟩
    exact Nat.not_lt.1 fun hlt => h op hlt (hsymbol.trans (fragment_isInfix_of_mem_events he))

/-- **The trial order goes down the recursion.** What a run records behind a binary fragment, as long
as it lies deeper, comes from the runs over the two operands: over the left one all binary fragments
have later operators, over the right one later ones or the same.  And wherever taking the operands
apart leads to, no operator is found that was tried before, nor on the left the operator itself. -/
theorem later_operators_below {before after : List Event} {e : Event} {left right : Fragment}
    {op : Operator} (h : (trace text limit).events = before ++ e :: after)
    (hc : e.capture = .binary left op right) :
    after.takeWhile (e.depth < ·.depth) <+:
      (run limit (e.depth + 1) left).events ++ (run limit (e.depth + 1) right).events ∧
    (∀ f ∈ (run limit (e.depth + 1) left).events, ∀ l op' r,
      f.capture = .binary l op' r → op.rank < op'.rank) ∧
    (∀ f ∈ (run limit (e.depth + 1) right).events, ∀ l op' r,
      f.capture = .binary l op' r → op.rank ≤ op'.rank) ∧
    (∀ v, Fragment.Within v left → ∀ op' : Operator, op'.rank ≤ op.rank → op'.find? v = none) ∧
    ∀ v, Fragment.Within v right → ∀ op' : Operator, op'.rank < op.rank → op'.find? v = none := by
  have hclassify := classify_of_mem_events (h ▸ List.mem_append_right before List.mem_cons_self)
  rw [hc, Fragment.classify_eq_some_iff] at hclassify
  obtain ⟨hleft, hright⟩ := hclassify.freeBelow
  refine ⟨?_, fun f hf l op' r hop => hleft.le_rank_of_mem_events hf hop,
    fun f hf l op' r hop => hright.le_rank_of_mem_events hf hop,
    fun v hv op' hop => (hleft.of_isInfix hv.isInfix).find?_eq_none (Nat.lt_succ_of_le hop),
    fun v hv op' hop => (hright.of_isInfix hv.isInfix).find?_eq_none hop⟩
  rw [takeWhile_events h, hc]
  exact events_runCapture_binary_isPrefix

/-- The run of stars is cut behind two of them, and the third one is left for later. -/
theorem later_operators_below_stars :
    (trace "1*2***3".toList 256).events =
      [] ++ ⟨.binary "1*2".toList .pow "*3".toList, "1*2***3".toList, 0⟩ ::
        (runCapture 256 0 (.binary "1*2".toList .pow "*3".toList)).events ∧
    (∀ f ∈ (run 256 1 "1*2".toList).events, ∀ l op' r,
      f.capture = .binary l op' r → Operator.pow.rank < op'.rank) ∧
    (∀ f ∈ (run 256 1 "*3".toList).events, ∀ l op' r,
      f.capture = .binary l op' r → Operator.pow.rank ≤ op'.rank) := by
  have hc : Fragment.classify (trim "1*2***3".toList) =
      some (.binary "1*2".toList .pow "*3".toList) := by decide
  have hevents := congrArg Traced.events (run_of_classify (Nat.zero_le 256) hc)
  have htrim : trim "1*2***3".toList = "1*2***3".toList := by decide
  rw [htrim] at hevents
  obtain ⟨-, hleft, hright, -⟩ := @later_operators_below _ _ [] _ _ _ _ _ hevents rfl
  exact ⟨hevents, hleft, hright⟩

end Reckoner
