import Mathlib.Data.List.MinMax
import Reckoner.Proofs.Rendering

/-!
# Flat expressions

Numerals without signs and operators between them are read token by token: the operator of the
lowest rank is taken at its leftmost place, and the tokens on both sides are read on their own.  The
search in the text finds the same places, whatever blanks stand around the numerals, as between
numerals every symbol stands for its own operator.
-/

namespace Reckoner

open Fragment

/-- A numeral without a sign. -/
abbrev Unsigned := { n : Numeral // n.sign = .plain }

theorem Unsigned.not_mem_symbolChars (n : Unsigned) :
    ∀ c ∈ n.val.text, c ∉ Operator.symbolChars := by
  intro c hc hmem
  rw [Numeral.text, n.property, Sign.text, List.nil_append] at hc
  exact Operator.not_digit_of_mem_symbolChars hmem (n.val.of_mem_body hc)

/-- How many fragments lie around the innermost ones. -/
def Expr.height : Expr → Nat
  | numeral _ => 0
  | call _ argument => argument.height + 1
  | binary left _ right => 1 + max left.height right.height

/-- Numerals with operators between them. -/
inductive Flat
  | numeral (n : Unsigned)
  | link (n : Unsigned) (op : Operator) (rest : Flat)

namespace Flat

def first : Flat → Unsigned
  | numeral n => n
  | link n _ _ => n

def operators : Flat → List Operator
  | numeral _ => []
  | link _ op rest => op :: rest.operators

/-- What is before and after the first place of the operator. -/
def splitAt? (op : Operator) : Flat → Option (Flat × Flat)
  | numeral _ => none
  | link n op' rest =>
    if op' = op then some (numeral n, rest)
    else (rest.splitAt? op).map fun (left, right) => (link n op' left, right)

/-- The operator of the lowest rank, and what is before and after its first place. -/
def split? (e : Flat) : Option (Operator × Flat × Flat) :=
  (e.operators.argmin Operator.rank).bind fun op => (e.splitAt? op).map (op, ·)

/-! ## The reference tree -/

variable {e l r : Flat} {op : Operator}

theorem operators_of_splitAt? (h : e.splitAt? op = some (l, r)) :
    e.operators = l.operators ++ op :: r.operators := by
  induction e generalizing l with
  | numeral n => cases h
  | link n op' rest ih =>
    rw [splitAt?] at h
    split at h
    · next heq =>
      cases h
      rw [operators, heq]
      rfl
    · obtain ⟨⟨l', r'⟩, hrest, heq⟩ := Option.map_eq_some_iff.1 h
      cases heq
      rw [operators, ih hrest]
      rfl

theorem splitAt?_eq_none_iff : e.splitAt? op = none ↔ op ∉ e.operators := by
  induction e with
  | numeral n => simp [splitAt?, operators]
  | link n op' rest ih =>
    rw [splitAt?, operators, List.mem_cons, not_or, ← ih]
    by_cases h : op' = op
    · simp [h]
    · simp [h, Ne.symm h]

theorem argmin_operators_eq_some_iff : e.operators.argmin Operator.rank = some op ↔
    op ∈ e.operators ∧ ∀ op' ∈ e.operators, op.rank ≤ op'.rank := by
  rw [List.argmin_eq_some_iff]
  refine and_congr_right fun _ => and_iff_left_of_imp fun hleast op' hop' hle => ?_
  cases Operator.rank_injective (Nat.le_antisymm (hleast op' hop') hle)
  exact Nat.le_refl _

theorem split?_eq_some_iff : e.split? = some (op, l, r) ↔
    e.splitAt? op = some (l, r) ∧ ∀ op' : Operator, op'.rank < op.rank → e.splitAt? op' = none := by
  rw [split?, Option.bind_eq_some_iff]
  simp only [argmin_operators_eq_some_iff, Option.map_eq_some_iff, Prod.mk.injEq]
  constructor
  · rintro ⟨_, ⟨-, hleast⟩, _, hsplit, rfl, rfl⟩
    refine ⟨hsplit, fun op' hrank => splitAt?_eq_none_iff.2 fun hmem => ?_⟩
    exact absurd (hleast op' hmem) (Nat.not_le.2 hrank)
  · rintro ⟨hsplit, hearlier⟩
    refine ⟨op, ⟨by simp [operators_of_splitAt? hsplit], fun op' hmem => ?_⟩, _, hsplit, rfl, rfl⟩
    exact Nat.not_lt.1 fun hlt => splitAt?_eq_none_iff.1 (hearlier op' hlt) hmem

theorem operators_of_split? (h : e.split? = some (op, l, r)) :
    e.operators = l.operators ++ op :: r.operators :=
  operators_of_splitAt? (split?_eq_some_iff.1 h).1

/-- Only numerals are not split. -/
theorem eq_numeral_of_split? (h : e.split? = none) : e = numeral e.first := by
  cases e with
  | numeral n => rfl
  | link n op rest =>
    have hne : (link n op rest).operators.argmin Operator.rank ≠ none := by
      simp [operators]
    obtain ⟨least, hleast⟩ := Option.ne_none_iff_exists'.1 hne
    rw [split?, hleast, Option.bind_some, Option.map_eq_none_iff] at h
    exact absurd (argmin_operators_eq_some_iff.1 hleast).1 (splitAt?_eq_none_iff.1 h)

/-- The tree that the tokens are read as. -/
def tree (e : Flat) : Expr :=
  match _h : e.split? with
  | none => .numeral e.first
  | some (op, l, r) => .binary l.tree op r.tree
termination_by e.operators.length
decreasing_by
  all_goals
    rw [operators_of_split? _h, List.length_append, List.length_cons]
    omega

theorem tree_numeral (n : Unsigned) : (numeral n).tree = .numeral n := by
  rw [tree]
  rfl

theorem tree_of_split? (h : e.split? = some (op, l, r)) : e.tree = .binary l.tree op r.tree := by
  rw [tree]
  split <;> simp_all

/-- The tree is not higher than there are operators. -/
theorem height_tree_le (e : Flat) : e.tree.height ≤ e.operators.length := by
  fun_induction tree e with
  | case1 e h => exact Nat.zero_le _
  | case2 e op l r h ihl ihr =>
    rw [operators_of_split? h, Expr.height, List.length_append, List.length_cons]
    omega

/-- The value when the operators are applied from right to left. -/
def foldRight : Flat → Binary64
  | numeral n => n.val.value
  | link n op rest => op.apply n.val.value rest.foldRight

theorem value_tree_of_chain (h : ∀ op' ∈ e.operators, op' = op) : e.tree.value = e.foldRight := by
  induction e with
  | numeral n =>
    rw [tree_numeral]
    rfl
  | link n op' rest ih =>
    obtain ⟨rfl, hrest⟩ := List.forall_mem_cons.1 h
    have hsplit : (link n op' rest).split? = some (op', numeral n, rest) := by
      refine split?_eq_some_iff.2 ⟨by simp [splitAt?], fun op hrank => ?_⟩
      refine splitAt?_eq_none_iff.2 fun hmem => ?_
      cases h op hmem
      exact absurd hrank (Nat.lt_irrefl _)
    rw [tree_of_split? hsplit, tree_numeral, Expr.value, ih hrest]
    rfl

/-! ## Texts -/

/-- The ways to write the tokens, which differ in the blanks between and around them. -/
inductive Written : Flat → Fragment → Prop
  | numeral (n : Unsigned) {s t : Fragment} (hs : Blanks s) (ht : Blanks t) :
      Written (numeral n) (s ++ n.val.text ++ t)
  | link (n : Unsigned) (op : Operator) {rest : Flat} {s t w : Fragment} (hs : Blanks s)
      (ht : Blanks t) (h : Written rest w) :
      Written (link n op rest) (s ++ n.val.text ++ t ++ (op.symbol ++ w))

/-- Numerals and blanks hold no part of a symbol. -/
theorem not_mem_symbolChars (n : Unsigned) {s t : Fragment} (hs : Blanks s) (ht : Blanks t) :
    ∀ c ∈ s ++ n.val.text ++ t, c ∉ Operator.symbolChars := by
  intro c hc
  rcases List.mem_append.1 hc with hc | hc
  · rcases List.mem_append.1 hc with hc | hc
    · exact Operator.not_mem_symbolChars_of_blanks hs c hc
    · exact n.not_mem_symbolChars c hc
  · exact Operator.not_mem_symbolChars_of_blanks ht c hc

namespace Written

variable {w : Fragment}

theorem ne_nil (h : e.Written w) : w ≠ [] := by
  cases h with
  | numeral n => simp [n.val.text_ne_nil]
  | link n => simp [n.val.text_ne_nil]

theorem head_not_mem (h : e.Written w) : ∀ c ∈ w.head?, c ∉ Operator.symbolChars := by
  intro c hc
  cases h with
  | numeral n hs ht => exact not_mem_symbolChars n hs ht c (List.mem_of_mem_head? hc)
  | @link n op rest s t w hs ht =>
    have hne : s ++ n.val.text ++ t ≠ [] := by simp [n.val.text_ne_nil]
    rw [List.head?_append_of_ne_nil _ hne] at hc
    exact not_mem_symbolChars n hs ht c (List.mem_of_mem_head? hc)

theorem open_not_mem (h : e.Written w) : '(' ∉ w := by
  have hblank : ∀ {s : Fragment}, Blanks s → '(' ∉ s := fun hs => hs.not_mem (by decide)
  have hnumeral : ∀ n : Numeral, '(' ∉ n.text := fun n => IsLiteral.paren_not_mem ⟨n, rfl⟩
  have hsymbol : ∀ op : Operator, '(' ∉ op.symbol := fun op h => op.ne_open_of_mem_symbol h rfl
  induction h with
  | numeral n hs ht => simp [hblank hs, hblank ht, hnumeral]
  | link n op hs ht _ ih => simp [hblank hs, hblank ht, hnumeral, hsymbol, ih]

theorem trimStart (h : e.Written w) : e.Written (trimStart w) := by
  have hfront : ∀ (n : Unsigned) {s : Fragment} (hs : Blanks s) (v : Fragment),
      Reckoner.trimStart (s ++ n.val.text ++ v) = [] ++ n.val.text ++ v := by
    intro n s hs v
    rw [List.append_assoc, trimStart_append_of_blanks hs, List.nil_append]
    refine trimStart_eq_self_iff.2 fun c hc => ?_
    rw [List.head?_append_of_ne_nil _ n.val.text_ne_nil] at hc
    exact n.val.trimmed_text.head_not_blank c hc
  cases h with
  | numeral n hs ht =>
    rw [hfront n hs]
    exact .numeral n .nil ht
  | link n op hs ht h =>
    rw [List.append_assoc _ _ (op.symbol ++ _), hfront n hs, ← List.append_assoc]
    exact .link n op .nil ht h

theorem trimEnd (h : e.Written w) : e.Written (trimEnd w) := by
  induction h with
  | @numeral n s t hs ht =>
    have hend : Reckoner.trimEnd n.val.text = n.val.text := (trimmed_iff.1 n.val.trimmed_text).2
    rw [trimEnd_append_of_blanks ht, trimEnd_append_of_ne_nil s (by simp [hend, n.val.text_ne_nil]),
      hend, ← List.append_nil (s ++ n.val.text)]
    exact .numeral n hs .nil
  | link n op hs ht _ ih =>
    have hrest := trimEnd_append_of_ne_nil op.symbol ih.ne_nil
    rw [trimEnd_append_of_ne_nil _ (by simp [hrest, ih.ne_nil]), hrest]
    exact .link n op hs ht ih

theorem trim (h : e.Written w) : e.Written (trim w) := h.trimStart.trimEnd

/-! ## Reading -/

/-- The search in the text finds the places of the operator among the tokens. -/
theorem cutFrom (h : e.Written w) (op : Operator) (previous : Option Char) :
    Option.Rel (fun parts texts => Written parts.1 texts.1 ∧ Written parts.2 texts.2)
      (e.splitAt? op) (op.cutFrom previous w) := by
  have hsymbol : ∀ {u : Fragment}, (∀ c ∈ u, c ∉ Operator.symbolChars) → ∀ c ∈ u, c ∉ op.symbol :=
    fun hu c hc hmem => hu c hc (op.mem_symbolChars hmem)
  induction h generalizing previous with
  | @numeral n s t hs ht =>
    rw [Operator.cutFrom_eq_none (hsymbol (not_mem_symbolChars n hs ht))]
    exact .none
  | @link n op' rest s t w hs ht h ih =>
    have hu := not_mem_symbolChars n hs ht
    have hlast : ∀ c ∈ (s ++ n.val.text ++ t).getLast?.or previous, c ∉ Operator.symbolChars := by
      intro c hc
      have hne : s ++ n.val.text ++ t ≠ [] := by simp [n.val.text_ne_nil]
      rw [List.getLast?_eq_some_getLast hne] at hc
      cases hc
      exact hu _ (List.getLast_mem hne)
    rw [op.cutFrom_append (hsymbol hu), splitAt?]
    split
    · next heq =>
      subst heq
      rw [Operator.cutFrom_symbol_append_self hlast h.head_not_mem]
      exact .some ⟨by simpa using Written.numeral n hs ht, h⟩
    · next hne =>
      rw [Operator.cutFrom_symbol_append_of_ne hne h.head_not_mem]
      have ih := ih op'.symbol.getLast?
      generalize rest.splitAt? op = parts, op.cutFrom _ w = texts at ih ⊢
      cases ih with
      | none => exact .none
      | some hparts => exact .some ⟨.link n op' hs ht hparts.1, hparts.2⟩

theorem occursIn_iff (h : e.Written w) : op.OccursIn w ↔ op ∈ e.operators := by
  rw [← not_iff_not, ← Operator.cut_eq_none_iff, ← splitAt?_eq_none_iff]
  exact (eq_none_iff_of_rel (h.cutFrom op none)).symm

/-- A symbol stands behind a numeral, and not as its sign. -/
theorem not_isLiteral (h : e.Written w) (hop : op ∈ e.operators) : ¬ w.IsLiteral := by
  rintro ⟨n', hn'⟩
  cases h with
  | numeral => cases hop
  | @link n op' rest s t w hs ht h =>
    obtain ⟨c, symbol, hsymbol⟩ := List.exists_cons_of_ne_nil op'.symbol_ne_nil
    rw [hsymbol, List.cons_append] at hn'
    have hdigit := op'.not_digit_of_mem_symbol (c := c) (by simp [hsymbol])
    have hnil := n'.eq_nil_of_text_eq hn' hdigit
    simp [n.val.text_ne_nil] at hnil

/-- Tokens with operators between them are cut where they are split. -/
theorem exists_classify (h : e.Written w) (hsplit : e.split? = some (op, l, r)) :
    ∃ u v, Fragment.classify w = some (.binary u op v) ∧ l.Written u ∧ r.Written v := by
  obtain ⟨hop, hearlier⟩ := split?_eq_some_iff.1 hsplit
  have hmem : op ∈ e.operators := by simp [operators_of_split? hsplit]
  have hcut := h.cutFrom op none
  rw [hop] at hcut
  obtain ⟨⟨u, v⟩, htexts, hl, hr⟩ := exists_of_rel_some hcut
  have hfree : FreeBelow op.rank w := freeBelow_iff.2 fun op' hrank hoccurs =>
    splitAt?_eq_none_iff.1 (hearlier op' hrank) (h.occursIn_iff.1 hoccurs)
  have hrec := Recognized.binary (h.not_isLiteral hmem)
    (fun hcall => h.open_not_mem hcall.paren_mem)
    (fun hgroup => h.open_not_mem hgroup.paren_mem) hfree htexts
  exact ⟨_, _, classify_eq_some_iff.2 hrec, hl.trimEnd, hr.trimStart⟩

end Written

theorem classify_trim_numeral {n : Unsigned} {w : Fragment} (h : (numeral n).Written w) :
    Fragment.classify (trim w) = some (.literal n.val.text) := by
  cases h with
  | numeral n hs ht =>
    rw [n.val.trimmed_text.trim_append_append hs ht]
    exact classify_eq_some_iff.2 (.literal ⟨n.val, rfl⟩)

/-- A run gives the value of the tree if the tree fits below the limit, and fails for its depth if
it does not. -/
theorem result_run {limit depth : Nat} {text : Fragment} (h : e.Written text) :
    (run limit depth text).result =
      if depth + e.tree.height ≤ limit then .ok e.tree.value
      else .error (.depthExceeded limit) := by
  induction text using Fragment.inductionOnParts generalizing depth e with
  | step text ih =>
    rcases Nat.lt_or_ge limit depth with hlt | hle
    · rw [run_of_lt hlt, if_neg (by omega)]
      rfl
    cases hsplit : e.split? with
    | none =>
      rw [eq_numeral_of_split? hsplit] at h ⊢
      rw [run_of_classify hle (classify_trim_numeral h), tree_numeral, Expr.height,
        Nat.add_zero, if_pos hle]
      exact Numeral.readLiteral_text _
    | some parts =>
      obtain ⟨op, l, r⟩ := parts
      obtain ⟨u, v, hc, hl, hr⟩ := h.trim.exists_classify hsplit
      have hleft := @ih _ hc u (by simp [Capture.parts]) l (depth + 1) hl
      have hright := @ih _ hc v (by simp [Capture.parts]) r (depth + 1) hr
      rw [run_of_classify hle hc, tree_of_split? hsplit, Expr.height, Expr.value, runCapture]
      by_cases hfits : depth + 1 + l.tree.height ≤ limit
      · rw [if_pos hfits] at hleft
        rw [Traced.bind_of_ok hleft]
        by_cases hfits' : depth + 1 + r.tree.height ≤ limit
        · rw [if_pos hfits'] at hright
          rw [Traced.bind_of_ok hright, if_pos (by omega)]
          rfl
        · rw [if_neg hfits'] at hright
          rw [Traced.bind_of_error hright, if_neg (by omega)]
      · rw [if_neg hfits] at hleft
        rw [Traced.bind_of_error hleft, if_neg (by omega)]

end Flat

/-- **Flat expressions are read token by token.** Evaluation gives the value of the tree that the
tokens are split into, as soon as the limit reaches its height, which is not above the number of
operators, and below it fails for the depth.  Where all operators are the same, they are applied
from right to left. -/
theorem evaluate_flat {e : Flat} {w : Fragment} (h : e.Written w) (limit : Nat) :
    (evaluate w limit =
      if e.tree.height ≤ limit then .ok e.tree.value else .error (.depthExceeded limit)) ∧
    e.tree.height ≤ e.operators.length ∧
    ∀ op, (∀ op' ∈ e.operators, op' = op) → e.tree.value = e.foldRight := by
  refine ⟨?_, e.height_tree_le, fun op hchain => Flat.value_tree_of_chain hchain⟩
  rw [evaluate, trace, Flat.result_run h, Nat.zero_add]

/-- A numeral of one digit. -/
def Unsigned.ofDigit (c : Char) (hc : c.isDigit) : Unsigned := ⟨.ofDigit c hc, rfl⟩

/-- The power is tried before the product, so the product is its left operand. -/
theorem evaluate_flat_power :
    (Flat.link (.ofDigit '2' rfl) .mul
      (.link (.ofDigit '3' rfl) .pow (.numeral (.ofDigit '4' rfl)))).Written "2*3 ** 4".toList ∧
    evaluate "2*3 ** 4".toList 1 = .error (.depthExceeded 1) ∧
    evaluate "2*3 ** 4".toList 2 = .ok (Operator.pow.apply
      (Operator.mul.apply (Numeral.ofDigit '2' rfl).value (Numeral.ofDigit '3' rfl).value)
      (Numeral.ofDigit '4' rfl).value) := by
  have blank : Blanks [' '] := by decide
  have h := Flat.Written.link (.ofDigit '2' rfl) .mul .nil .nil
    (.link (.ofDigit '3' rfl) .pow .nil blank (.numeral (.ofDigit '4' rfl) blank .nil))
  have hproduct : (Flat.link (.ofDigit '2' rfl) .mul (.numeral (.ofDigit '3' rfl))).tree =
      .binary (.numeral (.ofDigit '2' rfl)) .mul (.numeral (.ofDigit '3' rfl)) := by
    rw [Flat.tree_of_split? rfl, Flat.tree_numeral, Flat.tree_numeral]
    rfl
  have htree : (Flat.link (.ofDigit '2' rfl) .mul
      (.link (.ofDigit '3' rfl) .pow (.numeral (.ofDigit '4' rfl)))).tree =
      .binary (.binary (.numeral (.ofDigit '2' rfl)) .mul (.numeral (.ofDigit '3' rfl))) .pow
        (.numeral (.ofDigit '4' rfl)) := by
    rw [Flat.tree_of_split? rfl, hproduct, Flat.tree_numeral]
    rfl
  have hcut := (evaluate_flat h 1).1
  have hwhole := (evaluate_flat h 2).1
  rw [htree] at hcut hwhole
  exact ⟨h, hcut, hwhole⟩

end Reckoner
