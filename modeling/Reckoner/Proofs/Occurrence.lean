import Mathlib.Data.List.Basic
import Reckoner.Fragment.Recognition
import Reckoner.Proofs.Blank

/-!
# Where operators stand

An operator *stands alone* where its symbol is, except that a `*` or a `/` must not have another one
beside it.  A fragment is cut at the first place where the operator stands alone.  Operators have
ranks, by which they are tried; as the doubled symbols rank before the single ones, a fragment in
which no operator up to some rank stands alone does not contain their symbols at all, and neither
does any piece of it.
-/

namespace Reckoner

namespace Operator

variable {op : Operator} {w before left right : Fragment}

/-- May the symbol between these two texts be read as the operator? -/
def Alone (op : Operator) (before after : Fragment) : Prop :=
  op = mul ∨ op = div → before.getLast? ≠ op.symbol.head? ∧ after.head? ≠ op.symbol.head?

/-- The operator stands alone somewhere in the text. -/
def OccursIn (op : Operator) (w : Fragment) : Prop :=
  ∃ before after, w = before ++ op.symbol ++ after ∧ op.Alone before after

/-- The order of the operators: `//`, `%`, `**`, `*`, `/`, `+`, `-`. The lower the rank, the farther
outside a fragment is cut. -/
def rank : Operator → Nat
  | floorDiv => 0
  | mod => 1
  | pow => 2
  | mul => 3
  | div => 4
  | add => 5
  | sub => 6

theorem rank_injective {op op' : Operator} (h : op.rank = op'.rank) : op = op' := by
  cases op <;> cases op' <;> first | rfl | cases h

theorem mem_trialOrder (op : Operator) : op ∈ trialOrder := by
  cases op <;> decide

/-- Operators are tried by their rank. -/
theorem pairwise_rank_trialOrder : trialOrder.Pairwise fun op op' => op.rank < op'.rank := by
  decide

/-- The characters that symbols are made of. -/
def symbolChars : List Char := ['/', '%', '*', '+', '-']

theorem mem_symbolChars {c : Char} (h : c ∈ op.symbol) : c ∈ symbolChars := by
  cases op <;> simp [symbol] at h <;> simp [symbolChars, h]

theorem isBlank_of_mem_symbolChars {c : Char} (h : c ∈ symbolChars) : isBlank c = false := by
  have : symbolChars.all (! isBlank ·) := by decide
  simpa using List.all_eq_true.1 this c h

theorem isBlank_of_mem_symbol {c : Char} (h : c ∈ op.symbol) : isBlank c = false :=
  isBlank_of_mem_symbolChars (mem_symbolChars h)

theorem not_mem_symbolChars_of_blanks {s : List Char} (hs : Blanks s) : ∀ c ∈ s, c ∉ symbolChars :=
  fun _ hc hmem => hs.not_mem (isBlank_of_mem_symbolChars hmem) hc

theorem isWordChar_of_mem_symbolChars {c : Char} (h : c ∈ symbolChars) : isWordChar c = false := by
  have : symbolChars.all (! isWordChar ·) := by decide
  simpa using List.all_eq_true.1 this c h

theorem isWordChar_of_mem_symbol {c : Char} (h : c ∈ op.symbol) : isWordChar c = false :=
  isWordChar_of_mem_symbolChars (mem_symbolChars h)

theorem ne_open_of_mem_symbol {c : Char} (h : c ∈ op.symbol) : c ≠ '(' := by
  rintro rfl
  exact absurd (mem_symbolChars h) (by decide)

theorem ne_close_of_mem_symbol {c : Char} (h : c ∈ op.symbol) : c ≠ ')' := by
  rintro rfl
  exact absurd (mem_symbolChars h) (by decide)

theorem not_digit_of_mem_symbolChars {c : Char} (h : c ∈ symbolChars) :
    ¬ (c.isDigit ∨ c = '.') := by
  have : symbolChars.all fun c => ! (c.isDigit || c == '.') := by decide
  simpa using List.all_eq_true.1 this c h

theorem not_digit_of_mem_symbol {c : Char} (h : c ∈ op.symbol) : ¬ (c.isDigit ∨ c = '.') :=
  not_digit_of_mem_symbolChars (mem_symbolChars h)

/-- A symbol is one character, once or twice. -/
theorem symbol_eq_or (op : Operator) : ∃ c, op.symbol = [c] ∨ op.symbol = [c, c] := by
  cases op <;> exact ⟨_, by simp [symbol]; rfl⟩

/-- Symbols are told apart where neither goes on with a `*` or a `/`. -/
theorem symbol_append_inj {op' : Operator} {x y : Fragment}
    (hx : ∀ c ∈ x.head?, c ≠ '*' ∧ c ≠ '/') (hy : ∀ c ∈ y.head?, c ≠ '*' ∧ c ≠ '/')
    (h : op.symbol ++ x = op'.symbol ++ y) : op = op' ∧ x = y := by
  cases op <;> cases op' <;> simp_all [symbol]
  all_goals
    subst h
    simp at hy

/-! ## Cutting at the first occurrence -/

theorem dropStart?_eq_some_iff {start rest : Fragment} :
    Fragment.dropStart? start w = some rest ↔ w = start ++ rest := by
  refine ⟨eq_append_of_dropStart?, ?_⟩
  rintro rfl
  induction start with
  | nil => rfl
  | cons c start ih => simpa [Fragment.dropStart?] using ih

theorem after?_eq_some_iff :
    op.after? before.getLast? w = some right ↔ w = op.symbol ++ right ∧ op.Alone before right := by
  rw [after?, Option.filter_eq_some_iff, dropStart?_eq_some_iff]
  refine and_congr_right fun _ => ?_
  cases op <;> simp [doubled?, Alone]

/-- A cut behind `before` is at the first place where the operator stands alone. -/
theorem spec_of_cutFrom (before : Fragment) {w left right : Fragment}
    (h : op.cutFrom before.getLast? w = some (left, right)) :
    w = left ++ op.symbol ++ right ∧ op.Alone (before ++ left) right ∧
      ∀ l r, w = l ++ op.symbol ++ r → op.Alone (before ++ l) r → left.length ≤ l.length := by
  induction w generalizing before left with
  | nil => cases h
  | cons c rest ih =>
    rw [cutFrom] at h
    split at h
    · next here =>
      cases h
      obtain ⟨hw, alone⟩ := after?_eq_some_iff.1 here
      exact ⟨by simpa using hw, by simpa using alone, by simp⟩
    · next nowhere =>
      obtain ⟨⟨l₀, r₀⟩, hcut, heq⟩ := Option.map_eq_some_iff.1 h
      cases heq
      rw [← List.getLast?_concat] at hcut
      obtain ⟨hw, alone, first⟩ := ih _ hcut
      refine ⟨by simp [hw], by simpa using alone, fun l r hlr halone => ?_⟩
      cases l with
      | nil =>
        have : op.after? before.getLast? (c :: rest) = some r :=
          after?_eq_some_iff.2 ⟨by simpa using hlr, by simpa using halone⟩
        exact absurd this (by simp [nowhere])
      | cons d l =>
        obtain ⟨rfl, hrest⟩ := List.cons.inj hlr
        simpa using first l r (by simpa using hrest) (by simpa using halone)

theorem not_alone_of_cutFrom_eq_none (before : Fragment) {w : Fragment}
    (h : op.cutFrom before.getLast? w = none) :
    ∀ l r, w = l ++ op.symbol ++ r → ¬ op.Alone (before ++ l) r := by
  induction w generalizing before with
  | nil =>
    intro l r hw
    simp [op.symbol_ne_nil] at hw
  | cons c rest ih =>
    rw [cutFrom] at h
    split at h
    · cases h
    · next nowhere =>
      rw [Option.map_eq_none_iff, ← List.getLast?_concat] at h
      intro l r hlr halone
      cases l with
      | nil =>
        have : op.after? before.getLast? (c :: rest) = some r :=
          after?_eq_some_iff.2 ⟨by simpa using hlr, by simpa using halone⟩
        exact absurd this (by simp [nowhere])
      | cons d l =>
        obtain ⟨rfl, hrest⟩ := List.cons.inj hlr
        exact ih _ h l r (by simpa using hrest) (by simpa using halone)

theorem cut_eq_none_iff : op.cut w = none ↔ ¬ op.OccursIn w := by
  constructor
  · rintro h ⟨l, r, hw, alone⟩
    exact not_alone_of_cutFrom_eq_none [] h l r hw alone
  · intro h
    rw [Option.eq_none_iff_forall_ne_some]
    rintro ⟨l, r⟩ hcut
    obtain ⟨hw, alone, -⟩ := spec_of_cutFrom [] hcut
    exact h ⟨l, r, hw, alone⟩

theorem cut_eq_some_iff :
    op.cut w = some (left, right) ↔ w = left ++ op.symbol ++ right ∧ op.Alone left right ∧
      ∀ l r, w = l ++ op.symbol ++ r → op.Alone l r → left.length ≤ l.length := by
  refine ⟨spec_of_cutFrom [], fun ⟨hw, alone, first⟩ => ?_⟩
  cases hcut : op.cut w with
  | none => exact absurd ⟨left, right, hw, alone⟩ (cut_eq_none_iff.1 hcut)
  | some pair =>
    obtain ⟨l, r⟩ := pair
    obtain ⟨hw', alone', first'⟩ := spec_of_cutFrom [] hcut
    have hlen : l.length = left.length :=
      Nat.le_antisymm (first' left right hw alone) (first l r hw' alone')
    have := List.append_inj (by simpa using hw'.symm.trans hw) hlen
    simp_all

theorem dropStart?_singleton {c : Char} (h : w.head? ≠ some c) :
    Fragment.dropStart? [c] w = none := by
  cases w with
  | nil => rfl
  | cons d w => exact if_neg fun hc : c = d => h (by simp [hc])

/-- No operator is found in characters that its symbol is not made of. -/
theorem cutFrom_append {previous : Option Char} {v : Fragment} (hv : ∀ c ∈ v, c ∉ op.symbol)
    (w : Fragment) : op.cutFrom previous (v ++ w) =
      (op.cutFrom (v.getLast?.or previous) w).map fun (left, right) => (v ++ left, right) := by
  induction v generalizing previous with
  | nil => simp
  | cons c v ih =>
    have hnone : op.after? previous (c :: (v ++ w)) = none := by
      refine Option.eq_none_iff_forall_ne_some.2 fun rest hrest => hv c (by simp) ?_
      have hw := eq_append_of_after? hrest
      cases hsymbol : op.symbol with
      | nil => exact absurd hsymbol op.symbol_ne_nil
      | cons d symbol =>
        rw [hsymbol] at hw
        simp [(List.cons.inj hw).1]
    have hlast : (c :: v).getLast?.or previous = v.getLast?.or (some c) := by
      rw [List.getLast?_cons]
      cases v.getLast? <;> rfl
    rw [List.cons_append, cutFrom, hnone, hlast]
    simp only
    rw [ih fun d hd => hv d (by simp [hd]), Option.map_map]
    rfl

theorem cutFrom_eq_none {v : Fragment} (hv : ∀ c ∈ v, c ∉ op.symbol) (previous : Option Char) :
    op.cutFrom previous v = none := by
  rw [← List.append_nil v, cutFrom_append hv]
  rfl

/-- Between other characters a symbol is read as its own operator. -/
theorem cutFrom_symbol_append_self {previous : Option Char}
    (hprevious : ∀ c ∈ previous, c ∉ symbolChars) (hw : ∀ c ∈ w.head?, c ∉ symbolChars) :
    op.cutFrom previous (op.symbol ++ w) = some ([], w) := by
  obtain ⟨before, rfl⟩ : ∃ before : Fragment, before.getLast? = previous :=
    ⟨previous.toList, by cases previous <;> rfl⟩
  obtain ⟨c, symbol, hsymbol⟩ := List.exists_cons_of_ne_nil op.symbol_ne_nil
  have hhead : ∀ d ∈ op.symbol.head?, d ∈ symbolChars := fun d hd =>
    mem_symbolChars (List.mem_of_mem_head? hd)
  have halone : op.Alone before w := fun _ =>
    ⟨fun h => hprevious c (by rw [h, hsymbol]; rfl) (hhead c (by simp [hsymbol])),
      fun h => hw c (by rw [h, hsymbol]; rfl) (hhead c (by simp [hsymbol]))⟩
  have hafter : op.after? before.getLast? (op.symbol ++ w) = some w :=
    after?_eq_some_iff.2 ⟨rfl, halone⟩
  rw [hsymbol, List.cons_append] at hafter ⊢
  rw [cutFrom, hafter]

/-- Between other characters no symbol is read as another operator. -/
theorem cutFrom_symbol_append_of_ne {op' : Operator} {previous : Option Char} (hne : op' ≠ op)
    (hw : ∀ c ∈ w.head?, c ∉ symbolChars) : op.cutFrom previous (op'.symbol ++ w) =
      (op.cutFrom op'.symbol.getLast? w).map fun (left, right) =>
        (op'.symbol ++ left, right) := by
  by_cases hshare : ∃ c ∈ op'.symbol, c ∈ op.symbol
  · have hstar := dropStart?_singleton (c := '*') fun h => hw _ h (by decide)
    have hslash := dropStart?_singleton (c := '/') fun h => hw _ h (by decide)
    -- only a lone symbol and its doubled one have characters in common
    cases op <;> cases op' <;> simp [symbol] at hshare hne
    all_goals
      simp [cutFrom, after?, symbol, doubled?, Fragment.dropStart?, hstar, hslash,
        Option.filter_some, Function.comp_def]
  · rw [cutFrom_append (fun c hc hmem => hshare ⟨c, hc, hmem⟩)]
    cases h : op'.symbol.getLast? with
    | none => simp [op'.symbol_ne_nil] at h
    | some c => rfl

theorem find?_eq_none_iff : op.find? w = none ↔ ¬ op.OccursIn w := by
  rw [find?, Option.map_eq_none_iff, cut_eq_none_iff]

end Operator

/-! ## Two searches with related results -/

section

variable {α β : Type} {R : α → β → Prop} {a : α} {x : Option α} {y : Option β}

theorem eq_none_iff_of_rel (h : Option.Rel R x y) : x = none ↔ y = none := by
  cases h <;> simp

theorem exists_of_rel_some (h : Option.Rel R (some a) y) : ∃ b, y = some b ∧ R a b := by
  cases h with
  | some h => exact ⟨_, rfl, h⟩

end

/-! ## Texts without the symbols up to a rank -/

/-- No operator of a rank below `k` has its symbol in the text, alone or not. -/
def FreeBelow (k : Nat) (w : Fragment) : Prop :=
  ∀ op : Operator, op.rank < k → ¬ op.symbol <:+: w

namespace FreeBelow

variable {k : Nat} {op : Operator} {w v left right : Fragment}

theorem of_isInfix (h : FreeBelow k w) (hv : v <:+: w) : FreeBelow k v :=
  fun op hk hop => h op hk (hop.trans hv)

/-- Where the operators before it have no symbol, an operator stands alone wherever its symbol is:
beside another one it would be half of the doubled symbol. -/
theorem alone (h : FreeBelow op.rank w) (hw : w = left ++ op.symbol ++ right) :
    op.Alone left right := by
  have doubled : ∀ longer : Operator, longer.rank < op.rank →
      longer.symbol = op.symbol ++ op.symbol → op.symbol.length = 1 →
        left.getLast? ≠ op.symbol.head? ∧ right.head? ≠ op.symbol.head? := by
    intro longer hrank hsymbol hlength
    obtain ⟨c, hc⟩ := List.length_eq_one_iff.1 hlength
    rw [hc] at hw hsymbol ⊢
    constructor
    · intro hlast
      obtain ⟨l, rfl⟩ := List.getLast?_eq_some_iff.1 hlast
      exact h longer hrank ⟨l, right, by simp [hw, hsymbol]⟩
    · intro hhead
      obtain ⟨r, rfl⟩ := List.head?_eq_some_iff.1 hhead
      exact h longer hrank ⟨left, r, by simp [hw, hsymbol]⟩
  rintro (rfl | rfl)
  · exact doubled .pow (by decide) rfl rfl
  · exact doubled .floorDiv (by decide) rfl rfl

end FreeBelow

/-- Below a rank, no symbol stands anywhere as soon as none stands alone. -/
theorem freeBelow_iff {k : Nat} {w : Fragment} :
    FreeBelow k w ↔ ∀ op : Operator, op.rank < k → ¬ op.OccursIn w := by
  constructor
  · rintro h op hk ⟨l, r, rfl, -⟩
    exact h op hk ⟨l, r, rfl⟩
  · intro h op hk
    -- by induction on the rank, since the doubled symbol has to be excluded first
    induction hr : op.rank using Nat.strongRecOn generalizing op with
    | ind r ih =>
      rintro ⟨left, right, hw⟩
      have free : FreeBelow op.rank w := fun op' hop' => ih op'.rank (hr ▸ hop') op' (by omega) rfl
      exact h op hk ⟨left, right, hw.symm, free.alone hw.symm⟩

/-- No operator stands alone in a text exactly if no part of a symbol is in it. -/
theorem Operator.forall_not_occursIn_iff {w : Fragment} :
    (∀ op : Operator, ¬ op.OccursIn w) ↔ ∀ c ∈ symbolChars, c ∉ w := by
  have hrank : ∀ op : Operator, op.rank < trialOrder.length := fun op => by cases op <;> decide
  constructor
  · intro h c hc hmem
    have hfree : FreeBelow trialOrder.length w := freeBelow_iff.2 fun op _ => h op
    have hsymbol : ∀ c ∈ symbolChars, ∃ op : Operator, op.symbol = [c] := by
      simp only [symbolChars, List.forall_mem_cons, List.not_mem_nil, false_imp_iff, implies_true]
      exact ⟨⟨div, rfl⟩, ⟨mod, rfl⟩, ⟨mul, rfl⟩, ⟨add, rfl⟩, ⟨sub, rfl⟩, trivial⟩
    obtain ⟨op, hop⟩ := hsymbol c hc
    obtain ⟨l, r, rfl⟩ := List.append_of_mem hmem
    exact hfree op (hrank op) ⟨l, r, by simp [hop]⟩
  · rintro h op ⟨l, r, rfl, -⟩
    obtain ⟨c, hc⟩ := List.exists_mem_of_ne_nil _ op.symbol_ne_nil
    exact h c (mem_symbolChars hc) (by simp [hc])

theorem FreeBelow.find?_eq_none {k : Nat} {w : Fragment} {op : Operator} (h : FreeBelow k w)
    (hk : op.rank < k) : op.find? w = none :=
  Operator.find?_eq_none_iff.2 (freeBelow_iff.1 h op hk)

/-- A fragment is cut behind a text that neither holds the symbol nor ends with half of it. -/
theorem FreeBelow.cut_eq_some {op : Operator} {w left right : Fragment} (h : FreeBelow op.rank w)
    (hw : w = left ++ op.symbol ++ right) (hleft : ¬ op.symbol <:+: left)
    (hlast : ∀ c ∈ left.getLast?, c ∉ op.symbol) : op.cut w = some (left, right) := by
  refine Operator.cut_eq_some_iff.2 ⟨hw, h.alone hw, fun l r hlr _ => ?_⟩
  by_contra hlt
  rw [hw, List.append_assoc, List.append_assoc] at hlr
  rcases List.append_eq_append_iff.1 hlr with ⟨m, rfl, -⟩ | ⟨m, rfl, hm⟩
  · simp at hlt
  obtain ⟨c, hc | hc⟩ := op.symbol_eq_or <;> rw [hc] at hleft hlast hm
  · cases m with
    | nil => simp at hlt
    | cons d m =>
      obtain ⟨rfl, -⟩ := List.cons.inj hm
      exact hleft ⟨l, m, by simp⟩
  · rcases m with _ | ⟨d, _ | ⟨d', m⟩⟩
    · simp at hlt
    · obtain ⟨rfl, -⟩ := List.cons.inj hm
      simp at hlast
    · obtain ⟨rfl, hm'⟩ := List.cons.inj hm
      obtain ⟨rfl, -⟩ := List.cons.inj hm'
      exact hleft ⟨l, m, by simp⟩

/-- What stands before the first place of an operator is free of its symbol too. -/
theorem FreeBelow.left_of_cut {op : Operator} {w left right : Fragment} (h : FreeBelow op.rank w)
    (hcut : op.cut w = some (left, right)) : FreeBelow (op.rank + 1) left := by
  obtain ⟨hw, -, first⟩ := Operator.cut_eq_some_iff.1 hcut
  rintro op' hk ⟨l, m, hleft⟩
  rcases Nat.lt_succ_iff_lt_or_eq.1 hk with hlt | heq
  · exact h op' hlt ⟨l, m ++ op.symbol ++ right, by simp [hw, ← hleft]⟩
  · cases Operator.rank_injective heq
    have here : w = l ++ op.symbol ++ (m ++ op.symbol ++ right) := by simp [hw, ← hleft]
    have := first l _ here (h.alone here)
    have := List.length_pos_iff.2 op.symbol_ne_nil
    simp only [← hleft, List.length_append] at *
    omega

/-! ## Occurrences in parts of a text -/

namespace Operator

variable {op op' : Operator} {u v l r : Fragment} {c : Char}

theorem exists_ne_and_head?_symbol (op : Operator) (hc : c ∉ symbolChars) :
    ∃ d, c ≠ d ∧ op.symbol.head? = some d := by
  obtain ⟨d, rest, hd⟩ := List.exists_cons_of_ne_nil op.symbol_ne_nil
  have hmem : d ∈ op.symbol := by simp [hd]
  exact ⟨d, fun h => hc (h ▸ mem_symbolChars hmem), by simp [hd]⟩

/-- What stands behind another character does not see what is before it. -/
theorem alone_append_cons_left (hc : c ∉ symbolChars) :
    op.Alone (u ++ c :: l) r ↔ op.Alone l r := by
  obtain ⟨d, hne, hd⟩ := op.exists_ne_and_head?_symbol hc
  have hlast : (u ++ c :: l).getLast? ≠ op.symbol.head? ↔ l.getLast? ≠ op.symbol.head? := by
    rw [hd, List.getLast?_append, List.getLast?_cons]
    cases l.getLast? <;> simp [hne]
  rw [Alone, Alone, hlast]

/-- What stands before another character does not see what is behind it. -/
theorem alone_append_cons_right (hc : c ∉ symbolChars) :
    op.Alone l (r ++ c :: v) ↔ op.Alone l r := by
  obtain ⟨d, hne, hd⟩ := op.exists_ne_and_head?_symbol hc
  have hhead : (r ++ c :: v).head? ≠ op.symbol.head? ↔ r.head? ≠ op.symbol.head? := by
    rw [hd, List.head?_append, List.head?_cons]
    cases r.head? <;> simp [hne]
  rw [Alone, Alone, hhead]

/-- A character that is in no symbol keeps apart what is before it and what is behind. -/
theorem occursIn_append_cons_iff (hc : c ∉ symbolChars) :
    op.OccursIn (u ++ c :: v) ↔ op.OccursIn u ∨ op.OccursIn v := by
  have hsymbol : ∀ {x y : Fragment}, op.symbol ≠ x ++ c :: y := fun h => by
    have hmem : c ∈ op.symbol := by simp [h]
    exact hc (mem_symbolChars hmem)
  constructor
  · rintro ⟨l, r, hw, halone⟩
    rw [List.append_assoc] at hw
    rcases List.append_eq_append_iff.1 hw with ⟨m, rfl, hm⟩ | ⟨m, rfl, hm⟩
    · cases m with
      | nil =>
        obtain ⟨d, rest, hd⟩ := List.exists_cons_of_ne_nil op.symbol_ne_nil
        rw [hd] at hm
        exact absurd (List.cons.inj hm).1 fun h => hsymbol (x := []) (h ▸ hd)
      | cons d m =>
        obtain ⟨rfl, hv⟩ := List.cons.inj hm
        exact .inr ⟨m, r, by simp [hv], (alone_append_cons_left hc).1 halone⟩
    · rcases List.append_eq_append_iff.1 hm with ⟨k, rfl, rfl⟩ | ⟨k, hk, hr⟩
      · exact .inl ⟨l, k, by simp, (alone_append_cons_right hc).1 halone⟩
      · cases k with
        | nil =>
          rw [List.append_nil] at hk
          subst hk hr
          exact .inl ⟨l, [], by simp, (alone_append_cons_right (r := []) hc).1 halone⟩
        | cons d k =>
          obtain ⟨rfl, -⟩ := List.cons.inj hr
          exact absurd hk hsymbol
  · rintro (⟨l, r, rfl, halone⟩ | ⟨l, r, rfl, halone⟩)
    · exact ⟨l, r ++ c :: v, by simp, (alone_append_cons_right hc).2 halone⟩
    · exact ⟨u ++ c :: l, r, by simp, (alone_append_cons_left hc).2 halone⟩

theorem not_occursIn_of_not_mem (hu : ∀ c ∈ u, c ∉ symbolChars) : ¬ op.OccursIn u :=
  forall_not_occursIn_iff.2 (fun c hc hmem => hu c hmem hc) op

/-- Between other characters a symbol is that of its own operator only. -/
theorem eq_of_occursIn (hu : ∀ c ∈ u, c ∉ symbolChars) (hv : ∀ c ∈ v, c ∉ symbolChars)
    (h : op'.OccursIn (u ++ (op.symbol ++ v))) : op' = op := by
  have hsymbol : ∀ {w : Fragment}, (∀ c ∈ w, c ∉ symbolChars) → ∀ c ∈ w, c ∉ op'.symbol :=
    fun hw c hc hmem => hw c hc (mem_symbolChars hmem)
  by_contra hne
  refine cut_eq_none_iff.1 ?_ h
  rw [cut, cutFrom_append (hsymbol hu), cutFrom_symbol_append_of_ne (Ne.symm hne)
    (fun c hc => hv c (List.mem_of_mem_head? hc)), cutFrom_eq_none (hsymbol hv)]
  rfl

/-- In a pair of parentheses occurs what occurs between them. -/
theorem occursIn_parentheses_iff : op.OccursIn ('(' :: (u ++ [')'])) ↔ op.OccursIn u := by
  have hnil : ¬ op.OccursIn [] := not_occursIn_of_not_mem (by simp)
  rw [← List.nil_append ('(' :: _), occursIn_append_cons_iff (by decide),
    occursIn_append_cons_iff (by decide)]
  simp [hnil]

end Operator

end Reckoner
