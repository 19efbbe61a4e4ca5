import Mathlib.Algebra.Ring.Nat
import Reckoner.Proofs.Run

/-!
# Progress

The parts of a recognized fragment lie in it side by side, and at least one of its characters that
are not blank is in none of them.  So taking parts of parts comes to an end by itself, whatever the
limit, and a run recognizes at most as many fragments as the text has characters other than blanks.
-/

namespace Reckoner

variable {w p : Fragment} {c : Capture}

/-- The texts lie in `w` one behind the other, with anything between them. -/
inductive Pieces : List Fragment → Fragment → Prop
  | nil (w : Fragment) : Pieces [] w
  | cons {ps : List Fragment} {rest : Fragment} (gap p : Fragment) (h : Pieces ps rest) :
      Pieces (p :: ps) (gap ++ p ++ rest)

/-- How many characters are not blank. -/
def inkCount (w : Fragment) : Nat := w.countP (! isBlank ·)

/-- Is `p` what a run over `w` goes on with? -/
def PartOf (p w : Fragment) : Prop := ∃ c, Fragment.classify (trim w) = some c ∧ p ∈ c.parts

/-! ## Characters other than blanks -/

@[simp] theorem inkCount_append (v w : Fragment) : inkCount (v ++ w) = inkCount v + inkCount w :=
  List.countP_append

theorem inkCount_of_blanks {s : Fragment} (hs : Blanks s) : inkCount s = 0 := by
  rw [inkCount, List.countP_eq_zero]
  intro c hc
  simp [hs c hc]

theorem inkCount_pos_of_mem {a : Char} (ha : a ∈ w) (hink : isBlank a = false) : 0 < inkCount w :=
  List.countP_pos_iff.2 ⟨a, ha, by simp [hink]⟩

theorem inkCount_trimEnd (w : Fragment) : inkCount (trimEnd w) = inkCount w := by
  obtain ⟨s, hs, h⟩ := exists_trimEnd_append w
  conv => rhs; rw [h, inkCount_append, inkCount_of_blanks hs, Nat.add_zero]

theorem inkCount_trimStart (w : Fragment) : inkCount (trimStart w) = inkCount w := by
  obtain ⟨s, hs, h⟩ := exists_append_trimStart w
  conv => rhs; rw [h, inkCount_append, inkCount_of_blanks hs, Nat.zero_add]

theorem inkCount_trim (w : Fragment) : inkCount (trim w) = inkCount w := by
  rw [trim, inkCount_trimEnd, inkCount_trimStart]

theorem Operator.inkCount_symbol_pos (op : Operator) : 0 < inkCount op.symbol := by
  obtain ⟨a, ha⟩ := List.exists_mem_of_ne_nil _ op.symbol_ne_nil
  exact inkCount_pos_of_mem ha (isBlank_of_mem_symbol ha)

/-! ## The parts of a fragment -/

namespace Fragment

theorem Recognized.pieces (h : Recognized w c) : Pieces c.parts w := by
  cases h with
  | literal => exact .nil w
  | @call name inner _ _ _ hw =>
    rw [hw, show name ++ '(' :: (inner ++ [')']) = (name ++ ['(']) ++ inner ++ [')'] by simp]
    exact .cons _ inner (.nil _)
  | @group inner _ hw =>
    rw [hw, show '(' :: (inner ++ [')']) = ['('] ++ inner ++ [')'] by simp]
    exact .cons _ inner (.nil _)
  | @binary op left right _ _ _ _ hcut =>
    obtain ⟨hw, -⟩ := Operator.cut_eq_some_iff.1 hcut
    obtain ⟨s, -, hs⟩ := exists_trimEnd_append left
    obtain ⟨t, -, ht⟩ := exists_append_trimStart right
    have hpieces : w = [] ++ trimEnd left ++ ((s ++ op.symbol ++ t) ++ trimStart right ++ []) :=
      calc
        w = trimEnd left ++ s ++ op.symbol ++ (t ++ trimStart right) := by rw [← hs, ← ht, hw]
        _ = _ := by simp
    rw [hpieces]
    exact .cons _ _ (.cons _ _ (.nil _))

/-- A literal has a digit, and every other shape a parenthesis or a symbol outside its parts. -/
theorem Recognized.sum_inkCount_lt (h : Recognized w c) :
    (c.parts.map inkCount).sum < inkCount w := by
  have paren : 0 < inkCount ['('] := by decide
  cases h with
  | literal hn =>
    obtain ⟨n, rfl⟩ := hn
    obtain ⟨a, ha⟩ := List.exists_mem_of_ne_nil _ n.text_ne_nil
    exact inkCount_pos_of_mem ha (n.isBlank_of_mem_text ha)
  | @call name inner _ _ _ hw =>
    rw [hw, ← List.singleton_append]
    simp only [Capture.parts, List.map_cons, List.map_nil, List.sum_cons, List.sum_nil,
      inkCount_append]
    omega
  | @group inner _ hw =>
    rw [hw, ← List.singleton_append]
    simp only [Capture.parts, List.map_cons, List.map_nil, List.sum_cons, List.sum_nil,
      inkCount_append]
    omega
  | @binary op left right _ _ _ _ hcut =>
    obtain ⟨hw, -⟩ := Operator.cut_eq_some_iff.1 hcut
    have := op.inkCount_symbol_pos
    simp only [Capture.parts, List.map_cons, List.map_nil, List.sum_cons, List.sum_nil, hw,
      inkCount_append, inkCount_trimEnd, inkCount_trimStart]
    omega

end Fragment

theorem byteLength_append (v w : Fragment) :
    byteLength (v ++ w) = byteLength v + byteLength w := by
  induction v with
  | nil => simp [byteLength]
  | cons a v ih =>
    rw [List.cons_append, byteLength, ih, byteLength]
    omega

theorem byteLength_pos (h : w ≠ []) : 0 < byteLength w := by
  cases w with
  | nil => exact absurd rfl h
  | cons a w =>
    have := a.utf8Size_pos
    rw [byteLength]
    omega

/-- A shorter piece is also shorter in bytes. -/
theorem byteLength_lt_of_isInfix (h : p <:+: w) (hlt : p.length < w.length) :
    byteLength p < byteLength w := by
  obtain ⟨s, t, rfl⟩ := h
  have hst : s ++ t ≠ [] := by
    intro hnil
    obtain ⟨rfl, rfl⟩ := List.append_eq_nil_iff.1 hnil
    simp at hlt
  have := byteLength_pos hst
  simp only [byteLength_append] at this ⊢
  omega

theorem PartOf.length_lt (h : PartOf p w) : p.length < w.length := by
  obtain ⟨c, hc, hp⟩ := h
  exact (Fragment.length_lt_of_classify hc p hp).trans_le (length_trim_le w)

/-- Parts of parts of parts come to an end. -/
theorem partOf_wellFounded : WellFounded PartOf :=
  Subrelation.wf PartOf.length_lt (InvImage.wf List.length Nat.lt_wfRel.wf)

/-! ## The events of a run -/

theorem Traced.length_events_bind_le {α β : Type} {x : Traced α} {k : α → Traced β} {m n : Nat}
    (hx : x.events.length ≤ m) (hk : ∀ a, (k a).events.length ≤ n) :
    (x >>= k).events.length ≤ m + n := by
  cases h : x.result with
  | ok a =>
    have := hk a
    rw [bind_of_ok h, List.length_append]
    omega
  | error e =>
    rw [bind_of_error h]
    exact hx.trans (Nat.le_add_right m n)

/-- What is done with a recognized fragment leaves no more events than its parts may have. -/
theorem length_events_runCapture_le {limit depth : Nat}
    (ih : ∀ p ∈ c.parts, (run limit (depth + 1) p).events.length ≤ inkCount p) :
    (runCapture limit depth c).events.length ≤ (c.parts.map inkCount).sum := by
  cases c with
  | literal value => exact Nat.zero_le _
  | call name argument =>
    rw [runCapture, Traced.events_bind_ofExcept]
    exact ih argument (by simp [Capture.parts])
  | group inner => exact ih inner (by simp [Capture.parts])
  | binary left op right =>
    refine Traced.length_events_bind_le (ih left (by simp [Capture.parts])) fun a => ?_
    rw [Traced.events_bind_ofExcept]
    exact ih right (by simp [Capture.parts])

theorem length_events_run_le (limit depth : Nat) (text : Fragment) :
    (run limit depth text).events.length ≤ inkCount text := by
  induction text using Fragment.inductionOnParts generalizing depth with
  | step text ih =>
    rcases run_cases limit depth text with ⟨-, hrun⟩ | ⟨-, -, hrun⟩ | ⟨c, -, hc, hrun⟩
    · rw [hrun]
      exact Nat.zero_le _
    · rw [hrun]
      exact Nat.zero_le _
    · have hparts := length_events_runCapture_le fun p hp => ih c hc p hp (depth + 1)
      have hink := (Fragment.classify_eq_some_iff.1 hc).sum_inkCount_lt
      rw [inkCount_trim] at hink
      rw [hrun, List.length_cons]
      exact hparts.trans_lt hink

/-- **Progress without the limit.** The parts of any recognized fragment, trimmed or not, lie in it
side by side from left to right, and each of them is shorter, in characters and in bytes.  So going
on with parts always ends, and at every limit there are at most as many events as characters other
than blanks. -/
theorem parts_shrink_and_events_bounded :
    (∀ (w : Fragment) (c : Capture), w.classify = some c → Pieces c.parts w ∧
      ∀ p ∈ c.parts, p.length < w.length ∧ byteLength p < byteLength w) ∧
    WellFounded PartOf ∧
    ∀ (text : Fragment) (limit : Nat), (trace text limit).events.length ≤ inkCount text := by
  refine ⟨fun w c hc => ?_, partOf_wellFounded, fun text limit => length_events_run_le limit 0 text⟩
  have hrecognized := Fragment.classify_eq_some_iff.1 hc
  refine ⟨hrecognized.pieces, fun p hp => ?_⟩
  have hlt := Fragment.length_lt_of_classify hc p hp
  exact ⟨hlt, byteLength_lt_of_isInfix (hrecognized.part_isInfix p hp) hlt⟩

end Reckoner
