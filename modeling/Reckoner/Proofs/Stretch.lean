import Mathlib.Data.List.TakeDrop
import Reckoner.Proofs.Occurrence

/-!
# Where the search stops

A stretch is a character as often as it stands side by side.  A doubled symbol is found at the first
stretch of two or more of its character, a lone `*` or `/` at the first stretch of one, and any other
symbol at its first character.  Longer stretches hold more than one doubled symbol, but the first one
of them always begins its stretch.
-/

namespace Reckoner

variable {c : Char} {n : Nat} {op : Operator} {w before after left right : Fragment}

/-- Behind `before`, the text has the character `n` times, and not once more on either side. -/
structure Stretch (c : Char) (n : Nat) (before after w : Fragment) : Prop where
  eq : w = before ++ List.replicate n c ++ after
  before_ne : before.getLast? ≠ some c
  after_ne : after.head? ≠ some c

namespace Operator

/-- Does a place for the operator begin behind `before`? -/
def StartsBehind (w before : Fragment) : Operator → Prop
  | mod => ∃ after, w = before ++ '%' :: after
  | add => ∃ after, w = before ++ '+' :: after
  | sub => ∃ after, w = before ++ '-' :: after
  | pow => ∃ n after, 2 ≤ n ∧ Stretch '*' n before after w
  | floorDiv => ∃ n after, 2 ≤ n ∧ Stretch '/' n before after w
  | mul => ∃ after, Stretch '*' 1 before after w
  | div => ∃ after, Stretch '/' 1 before after w

/-- No place for the operator begins earlier. -/
def FirstBehind (op : Operator) (w before : Fragment) : Prop :=
  op.StartsBehind w before ∧
    ∀ before', op.StartsBehind w before' → before.length ≤ before'.length

end Operator

/-! ## Stretches and symbols -/

namespace Stretch

theorem eq_append_cons_cons (h : Stretch c n before after w) (hn : 2 ≤ n) :
    w = before ++ [c, c] ++ (List.replicate (n - 2) c ++ after) := by
  obtain ⟨k, rfl⟩ := Nat.exists_eq_add_of_le' hn
  rw [h.eq, Nat.add_sub_cancel]
  simp [List.replicate_succ]

/-- Two of a character are part of a stretch, and begin it if none stands before them. -/
theorem exists_of_doubled (hw : w = before ++ [c, c] ++ right) (hbefore : before.getLast? ≠ some c) :
    ∃ n after, 2 ≤ n ∧ Stretch c n before after w := by
  have hright : right.takeWhile (· == c) = List.replicate (right.takeWhile (· == c)).length c :=
    List.eq_replicate_of_mem fun d hd => by simpa using List.mem_takeWhile_imp hd
  refine ⟨(right.takeWhile (· == c)).length + 2, right.dropWhile (· == c), by omega, ?_, hbefore, ?_⟩
  · rw [List.replicate_succ, List.replicate_succ, ← hright, hw]
    simp [List.takeWhile_append_dropWhile]
  · intro hhead
    have hnot := List.head?_dropWhile_not (· == c) right
    rw [hhead] at hnot
    simp at hnot

end Stretch

namespace Operator

/-- Where a place begins, the symbol stands alone. -/
theorem StartsBehind.exists_alone (h : op.StartsBehind w before) :
    ∃ after, w = before ++ op.symbol ++ after ∧ op.Alone before after := by
  have other : ∀ {after : Fragment}, ¬ (op = mul ∨ op = div) → op.Alone before after :=
    fun hop h => absurd h hop
  cases op with
  | mod | add | sub =>
    obtain ⟨after, rfl⟩ := h
    exact ⟨after, by simp [symbol], other (by decide)⟩
  | pow | floorDiv =>
    obtain ⟨n, after, hn, h⟩ := h
    exact ⟨_, h.eq_append_cons_cons hn, other (by decide)⟩
  | mul | div =>
    obtain ⟨after, h⟩ := h
    exact ⟨after, h.eq, fun _ => ⟨h.before_ne, h.after_ne⟩⟩

/-- The first symbol that stands alone begins a place: of a stretch, it is not preceded by more of
it. -/
theorem startsBehind_of_first (hw : w = left ++ op.symbol ++ right) (halone : op.Alone left right)
    (first : ∀ l r, w = l ++ op.symbol ++ r → op.Alone l r → left.length ≤ l.length) :
    op.StartsBehind w left := by
  have doubled : ∀ d, op.symbol = [d, d] → left.getLast? ≠ some d := by
    intro d hd hlast
    obtain ⟨l, rfl⟩ := List.getLast?_eq_some_iff.1 hlast
    -- one character earlier the same symbol stands
    have hearlier : w = l ++ op.symbol ++ (d :: right) := by simp [hw, hd]
    have halone' : op.Alone l (d :: right) := by
      rintro (rfl | rfl) <;> simp [symbol] at hd
    have hle := first l _ hearlier halone'
    rw [List.length_append, List.length_singleton] at hle
    omega
  cases op with
  | mod | add | sub => exact ⟨right, by simpa [symbol] using hw⟩
  | pow | floorDiv => exact Stretch.exists_of_doubled hw (doubled _ rfl)
  | mul =>
    obtain ⟨hleft, hright⟩ := halone (.inl rfl)
    exact ⟨right, hw, hleft, hright⟩
  | div =>
    obtain ⟨hleft, hright⟩ := halone (.inr rfl)
    exact ⟨right, hw, hleft, hright⟩

/-! ## The search -/

theorem firstBehind_of_cut (h : op.cut w = some (left, right)) : op.FirstBehind w left := by
  obtain ⟨hw, halone, first⟩ := cut_eq_some_iff.1 h
  refine ⟨startsBehind_of_first hw halone first, fun before' h' => ?_⟩
  obtain ⟨after, hafter, halone'⟩ := h'.exists_alone
  exact first before' after hafter halone'

theorem cut_eq_none_iff_forall : op.cut w = none ↔ ∀ before, ¬ op.StartsBehind w before := by
  constructor
  · rintro h before hstarts
    obtain ⟨after, hw, halone⟩ := hstarts.exists_alone
    exact cut_eq_none_iff.1 h ⟨before, after, hw, halone⟩
  · intro h
    rw [Option.eq_none_iff_forall_ne_some]
    rintro ⟨left, right⟩ hcut
    exact h left (firstBehind_of_cut hcut).1

/-- There is one first place only, as all begin behind a start of the text. -/
theorem FirstBehind.eq {before' : Fragment} (h : op.FirstBehind w before)
    (h' : op.FirstBehind w before') : before = before' := by
  obtain ⟨after, hw, -⟩ := h.1.exists_alone
  obtain ⟨after', hw', -⟩ := h'.1.exists_alone
  have hlen : before.length = before'.length := Nat.le_antisymm (h.2 _ h'.1) (h'.2 _ h.1)
  rw [List.append_assoc] at hw hw'
  exact (List.append_inj (hw.symm.trans hw') hlen).1

theorem exists_cut_iff : (∃ right, op.cut w = some (left, right)) ↔ op.FirstBehind w left := by
  constructor
  · rintro ⟨right, hcut⟩
    exact firstBehind_of_cut hcut
  · intro h
    cases hcut : op.cut w with
    | none => exact absurd h.1 (cut_eq_none_iff_forall.1 hcut left)
    | some parts =>
      obtain ⟨l, r⟩ := parts
      exact ⟨r, by rw [(firstBehind_of_cut hcut).eq h]⟩

end Operator

/-! ## Places in bytes -/

theorem byteLength_eq_utf8ByteSize (w : Fragment) : byteLength w = (String.ofList w).utf8ByteSize := by
  induction w with
  | nil => rfl
  | cons c w ih =>
    rw [byteLength, ih, ← List.singleton_append, String.ofList_append, String.utf8ByteSize_append,
      ← String.singleton_eq_ofList, String.utf8ByteSize_singleton]

/-- Behind a start of the text, a character ends. -/
theorem isValid_utf8ByteSize (left right : Fragment) :
    String.Pos.Raw.IsValid (String.ofList (left ++ right)) ⟨(String.ofList left).utf8ByteSize⟩ :=
  String.Pos.Raw.isValid_iff_exists_append.2
    ⟨String.ofList left, String.ofList right, String.ofList_append, rfl⟩

namespace Operator

theorem find?_eq_some_iff {place : Nat} : op.find? w = some place ↔
    ∃ before, op.FirstBehind w before ∧ (String.ofList before).utf8ByteSize = place := by
  simp only [find?, Option.map_eq_some_iff, Prod.exists, byteLength_eq_utf8ByteSize,
    ← exists_cut_iff, exists_and_right]

/-! ## The operands -/

/-- A cut leaves the operands and the blanks that face the operator. -/
theorem exists_blanks_of_cut (h : op.cut w = some (left, right)) : ∃ s t, Blanks s ∧ Blanks t ∧
    left = trimEnd left ++ s ∧ w = trimEnd left ++ s ++ op.symbol ++ t ++ trimStart right := by
  obtain ⟨s, hs, hleft⟩ := exists_trimEnd_append left
  obtain ⟨t, ht, hright⟩ := exists_append_trimStart right
  refine ⟨s, t, hs, ht, hleft, ?_⟩
  rw [← hleft, List.append_assoc, ← hright]
  exact (cut_eq_some_iff.1 h).1

/-- **The search is exact.** An operator is found at the bytes before the first place for it, and
not at all if there is none. There a character ends, and the fragment is taken apart into the
operands, the blanks beside the operator and the operator; no operand has blanks that face it, and
those of a trimmed fragment have none at all. -/
theorem find?_first_and_binary?_splits (op : Operator) (w : Fragment) :
    (op.find? w = none ↔ ∀ before, ¬ op.StartsBehind w before) ∧
    (∀ place, op.find? w = some place ↔
      ∃ before, op.FirstBehind w before ∧ (String.ofList before).utf8ByteSize = place) ∧
    (Fragment.binary? op w = none ↔ op.find? w = none) ∧
    ∀ place, op.find? w = some place →
      String.Pos.Raw.IsValid (String.ofList w) ⟨place⟩ ∧
      ∃ left s t right, Fragment.binary? op w = some (.binary left op right) ∧
        w = left ++ s ++ op.symbol ++ t ++ right ∧ Blanks s ∧ Blanks t ∧
        (String.ofList (left ++ s)).utf8ByteSize = place ∧
        (∀ c ∈ left.getLast?, isBlank c = false) ∧ (∀ c ∈ right.head?, isBlank c = false) ∧
        (Trimmed w → Trimmed left ∧ Trimmed right) := by
  refine ⟨?_, fun place => find?_eq_some_iff, ?_, fun place h => ?_⟩
  · rw [find?, Option.map_eq_none_iff, cut_eq_none_iff_forall]
  · rw [Fragment.binary?, find?, Option.map_eq_none_iff, Option.map_eq_none_iff]
  obtain ⟨left, ⟨right, hcut⟩, rfl⟩ : ∃ left, (∃ right, op.cut w = some (left, right)) ∧
      (String.ofList left).utf8ByteSize = place := by
    simpa only [exists_cut_iff] using find?_eq_some_iff.1 h
  obtain ⟨s, t, hs, ht, hleft, hw⟩ := exists_blanks_of_cut hcut
  have hparts : w = left ++ (op.symbol ++ right) := by
    rw [← List.append_assoc]
    exact (cut_eq_some_iff.1 hcut).1
  refine ⟨?_, trimEnd left, s, t, trimStart right, ?_, hw, hs, ht, ?_, ?_, ?_, fun hw' => ⟨?_, ?_⟩⟩
  · rw [hparts]
    exact isValid_utf8ByteSize _ _
  · rw [Fragment.binary?, hcut]
    rfl
  · rw [← hleft]
  · exact trimEnd_eq_self_iff.1 (trimEnd_trimEnd left)
  · exact trimStart_eq_self_iff.1 (trimStart_trimStart right)
  · rw [hparts] at hw'
    exact hw'.trimEnd_of_append
  · rw [hparts, ← List.append_assoc] at hw'
    exact hw'.trimStart_of_append

/-- The stars of the first stretch are passed over, and the letter before them has two bytes. -/
example : mul.find? "é***2*3".toList = some 6 ∧ pow.find? "é***2*3".toList = some 2 := by decide

end Operator

end Reckoner
