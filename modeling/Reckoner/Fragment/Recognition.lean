import Reckoner.Decimal.Numeral
import Reckoner.Fragment.Capture
import Reckoner.Text.Blank
import Reckoner.Text.Bytes
import Reckoner.Text.Word

/-! # Recognition

Each kind has a rule that looks at the whole fragment. No rule balances parentheses: a group or a
call runs to the last character, and an operator is cut at wherever it stands first.
-/

namespace Reckoner

namespace Fragment

/-- What follows `start` in a text that begins with it. -/
def dropStart? : Fragment → Fragment → Option Fragment
  | [], w => some w
  | _ :: _, [] => none
  | c :: start, d :: w => if c = d then dropStart? start w else none

end Fragment

namespace Operator

/-- What follows the operator where `here` begins with it and it stands alone; `previous` is the
character before. A symbol that could be half of a doubled one stands alone only between other
characters. -/
def after? (op : Operator) (previous : Option Char) (here : Fragment) : Option Fragment :=
  (Fragment.dropStart? op.symbol here).filter fun rest =>
    op.doubled?.isNone || (previous ≠ op.symbol.head? && rest.head? ≠ op.symbol.head?)

/-- What is before and after the first place where the operator stands alone. -/
def cutFrom (op : Operator) (previous : Option Char) : Fragment → Option (Fragment × Fragment)
  | [] => none
  | c :: rest =>
    match op.after? previous (c :: rest) with
    | some right => some ([], right)
    | none => (op.cutFrom (some c) rest).map fun (left, right) => (c :: left, right)

def cut (op : Operator) (w : Fragment) : Option (Fragment × Fragment) := op.cutFrom none w

/-- Where the operator first stands alone, in bytes of UTF-8. -/
def find? (op : Operator) (w : Fragment) : Option Nat :=
  (op.cut w).map fun (left, _) => byteLength left

end Operator

namespace Fragment

/-- The fragment, if it is a numeral from end to end. -/
def literal? (w : Fragment) : Option Fragment :=
  if (Decimal.read? w).isSome then some w else none

/-- What stands before a closing parenthesis at the very end, if anything does. -/
def closed? (w : Fragment) : Option Fragment :=
  if w.getLast? = some ')' ∧ w.dropLast ≠ [] then some w.dropLast else none

/-- A name before the first parenthesis, and an argument up to the last character. -/
def call? (w : Fragment) : Option Capture :=
  let name := w.takeWhile (· ≠ '(')
  match w.dropWhile (· ≠ '(') with
  | [] => none
  | _ :: rest =>
    if name ≠ [] ∧ name.all isWordChar then (closed? rest).map (.call name) else none

/-- Parentheses as the first and the last character. -/
def group? : Fragment → Option Capture
  | '(' :: rest => (closed? rest).map .group
  | _ => none

/-- The fragments on both sides of an operator, without the blanks that face it. -/
def binary? (op : Operator) (w : Fragment) : Option Capture :=
  (op.cut w).map fun (left, right) => .binary (trimEnd left) op (trimStart right)

end Fragment

/-- The rule of one kind. -/
def Kind.recognize : Kind → Fragment → Option Capture
  | literal, w => w.literal?.map .literal
  | call, w => w.call?
  | group, w => w.group?
  | binary op, w => w.binary? op

/-- What the first kind in the trial order that recognizes the fragment makes of it. -/
def Fragment.classify (w : Fragment) : Option Capture :=
  Kind.trialOrder.findSome? (·.recognize w)

/-! ## Every part is shorter -/

namespace Operator

theorem eq_append_of_dropStart? {start w rest : Fragment}
    (h : Fragment.dropStart? start w = some rest) : w = start ++ rest := by
  fun_induction Fragment.dropStart? start w with
  | case1 w => simpa using h
  | case2 => cases h
  | case3 c start w ih => rw [List.cons_append, ← ih h]
  | case4 => cases h

theorem eq_append_of_after? {op : Operator} {previous : Option Char} {here rest : Fragment}
    (h : op.after? previous here = some rest) : here = op.symbol ++ rest :=
  eq_append_of_dropStart? (Option.filter_eq_some_iff.1 h).1

theorem length_lt_of_after? {op : Operator} {previous : Option Char} {here rest : Fragment}
    (h : op.after? previous here = some rest) : rest.length < here.length := by
  have := List.length_pos_iff.2 op.symbol_ne_nil
  rw [eq_append_of_after? h, List.length_append]
  omega

theorem length_lt_of_cutFrom {op : Operator} {previous : Option Char} {w left right : Fragment}
    (h : op.cutFrom previous w = some (left, right)) :
    left.length < w.length ∧ right.length < w.length := by
  induction w generalizing previous left with
  | nil => simp [cutFrom] at h
  | cons c rest ih =>
    rw [cutFrom] at h
    split at h
    · next after =>
      cases h
      exact ⟨by simp, length_lt_of_after? after⟩
    · obtain ⟨⟨l, r⟩, hcut, heq⟩ := Option.map_eq_some_iff.1 h
      cases heq
      have := ih hcut
      simp only [List.length_cons]
      omega

end Operator

namespace Fragment

theorem length_lt_of_closed? {w inner : Fragment} (h : w.closed? = some inner) :
    inner.length < w.length := by
  rw [closed?] at h
  split at h
  · next last =>
    cases h
    have : w ≠ [] := by rintro rfl; simp at last
    have := List.length_pos_iff.2 this
    simp only [List.length_dropLast]
    omega
  · cases h

theorem length_lt_of_recognize {k : Kind} {w : Fragment} {c : Capture}
    (h : k.recognize w = some c) : ∀ part ∈ c.parts, part.length < w.length := by
  cases k with
  | literal =>
    obtain ⟨_, -, rfl⟩ := Option.map_eq_some_iff.1 h
    simp [Capture.parts]
  | call =>
    simp only [Kind.recognize, call?] at h
    split at h
    · cases h
    · next c rest drop =>
      split at h
      · obtain ⟨inner, closed, rfl⟩ := Option.map_eq_some_iff.1 h
        have short := length_lt_of_closed? closed
        have drop := congrArg List.length drop
        have := (List.dropWhile_sublist (l := w) (fun x => decide (x ≠ '('))).length_le
        simp only [Capture.parts, List.mem_singleton, forall_eq, List.length_cons] at *
        omega
      · cases h
  | group =>
    simp only [Kind.recognize] at h
    unfold group? at h
    split at h
    · obtain ⟨inner, closed, rfl⟩ := Option.map_eq_some_iff.1 h
      have := length_lt_of_closed? closed
      simp only [Capture.parts, List.mem_singleton, forall_eq, List.length_cons]
      omega
    · cases h
  | binary op =>
    obtain ⟨⟨left, right⟩, cut, rfl⟩ := Option.map_eq_some_iff.1 h
    have ⟨hl, hr⟩ := Operator.length_lt_of_cutFrom cut
    have := length_trimEnd_le left
    have := length_trimStart_le right
    simp only [Capture.parts, List.mem_cons, List.not_mem_nil, or_false, forall_eq_or_imp,
      forall_eq]
    omega

theorem length_lt_of_classify {w : Fragment} {c : Capture} (h : w.classify = some c) :
    ∀ part ∈ c.parts, part.length < w.length := by
  obtain ⟨k, -, recognized⟩ := List.exists_of_findSome?_eq_some h
  exact length_lt_of_recognize recognized

end Fragment

end Reckoner
