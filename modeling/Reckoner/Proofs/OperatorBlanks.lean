import Reckoner.Proofs.Padding
import Reckoner.Proofs.Run

/-!
# Blanks around operators

Blanks that are put around operators leave evaluation as it is.  Numerals, names and fragments that
are not recognized have no place for them inside, every operator is found where it was found before,
and each of its operands is padded in turn.  So evaluation gives the same value or the same error,
along events of the same kinds and depths.
-/

namespace Reckoner

open Fragment

namespace Operator

/-- The characters of symbols that are not signs, behind which blanks may be put. -/
def unsignedChars : List Char := ['%', '*', '/']

theorem unsignedChars_subset : unsignedChars ⊆ symbolChars := by
  simp [unsignedChars, symbolChars]

end Operator

theorem not_gap {c d : Char} (hc : c ∉ Operator.unsignedChars) (hd : d ∉ Operator.symbolChars) :
    ¬ Gap (some c) (some d) := by
  simp only [Operator.unsignedChars, Operator.symbolChars, List.mem_cons, List.not_mem_nil,
    or_false, not_or] at hc hd
  simp [Gap, hc, hd]

namespace Padded

variable {before after : Option Char} {c : Char} {u v w w' : Fragment}

/-! ## Texts without a place inside -/

/-- Behind a character that is not one of `%`, `*` and `/`, there is no place in a text without
symbols. -/
theorem exists_blanks_behind (h : Padded (some c) after w w') (hc : c ∉ Operator.unsignedChars)
    (hw : ∀ d ∈ w, d ∉ Operator.symbolChars) :
    ∃ t, Blanks t ∧ w' = w ++ t ∧ ∀ d ∈ after, d ∉ Operator.symbolChars → t = [] := by
  induction w generalizing c w' with
  | nil =>
    cases h with
    | nil hs hgap =>
      refine ⟨w', hs, rfl, fun d hd hsymbol => ?_⟩
      by_contra hne
      rw [Option.mem_def.1 hd] at hgap
      exact not_gap hc hsymbol (hgap hne)
  | cons d w ih =>
    obtain ⟨hd, hw⟩ := List.forall_mem_cons.1 hw
    cases h with
    | @cons _ _ _ s _ _ hs hgap h =>
      have hnil : s = [] := by
        by_contra hne
        exact not_gap hc hd (hgap hne)
      obtain ⟨t, ht, rfl, hend⟩ := ih h (fun hmem => hd (Operator.unsignedChars_subset hmem)) hw
      exact ⟨t, ht, by simp [hnil], hend⟩

/-- A text without symbols, but for a sign in front, is padded at its ends only, and at its end only
in front of a symbol. -/
theorem exists_blanks (h : Padded before after w w')
    (hhead : ∀ c ∈ w.head?, c ∉ Operator.unsignedChars)
    (htail : ∀ c ∈ w.tail, c ∉ Operator.symbolChars) :
    ∃ s t, Blanks s ∧ Blanks t ∧ w' = s ++ w ++ t ∧
      ∀ d ∈ after, d ∉ Operator.symbolChars → t = [] := by
  cases h with
  | nil hs => exact ⟨w', [], hs, .nil, by simp, fun _ _ _ => rfl⟩
  | @cons _ _ c s w w' hs _ h =>
    obtain ⟨t, ht, rfl, hend⟩ := h.exists_blanks_behind (hhead c rfl) htail
    exact ⟨s, t, hs, ht, by simp, hend⟩

theorem eq_of_trimmed (h : Padded before after w w')
    (hhead : ∀ c ∈ w.head?, c ∉ Operator.unsignedChars)
    (htail : ∀ c ∈ w.tail, c ∉ Operator.symbolChars) (hw : Trimmed w) (hw' : Trimmed w') :
    w' = w := by
  obtain ⟨s, t, hs, ht, heq, -⟩ := h.exists_blanks hhead htail
  rw [← hw', heq, hw.trim_append_append hs ht]

theorem eq_of_not_mem (h : Padded before after w w') (hw : ∀ c ∈ Operator.symbolChars, c ∉ w)
    (htrim : Trimmed w) (htrim' : Trimmed w') : w' = w := by
  refine h.eq_of_trimmed (fun c hc hmem => ?_) (fun c hc hmem => ?_) htrim htrim'
  · exact hw c (Operator.unsignedChars_subset hmem) (List.mem_of_mem_head? hc)
  · exact hw c hmem (List.mem_of_mem_tail hc)

theorem eq_of_isLiteral (h : Padded before after w w') (hw : w.IsLiteral) (hw' : Trimmed w') :
    w' = w := by
  obtain ⟨n, rfl⟩ := hw
  refine h.eq_of_trimmed (fun c hc hmem => ?_) (fun c hc hmem => ?_) n.trimmed_text hw'
  · have hnumeral := n.of_mem_text (List.mem_of_mem_head? hc)
    simp only [Operator.unsignedChars, List.mem_cons, List.not_mem_nil, or_false] at hmem
    rcases hmem with rfl | rfl | rfl <;> revert hnumeral <;> decide
  · exact Operator.not_digit_of_mem_symbolChars hmem (n.of_mem_tail_text hc)

/-! ## Calls and groups -/

/-- Nothing is put into a name, or between it and the parenthesis behind it. -/
theorem exists_blanks_of_isWordChar (h : Padded before (some '(') w w')
    (hw : ∀ c ∈ w, isWordChar c) : ∃ s, Blanks s ∧ w' = s ++ w := by
  have hsymbol : ∀ c ∈ w, c ∉ Operator.symbolChars := fun c hc hmem =>
    absurd (hw c hc) (by simp [Operator.isWordChar_of_mem_symbolChars hmem])
  obtain ⟨s, t, hs, -, rfl, ht⟩ := h.exists_blanks
    (fun c hc hmem => hsymbol c (List.mem_of_mem_head? hc) (Operator.unsignedChars_subset hmem))
    (fun c hc => hsymbol c (List.mem_of_mem_tail hc))
  cases ht '(' rfl (by decide)
  exact ⟨s, hs, List.append_nil _⟩

/-- A call or a group is padded inside its parentheses only. -/
theorem exists_of_parentheses (name : Fragment) {inner : Fragment}
    (h : Padded none none (name ++ '(' :: (inner ++ [')'])) w')
    (hname : ∀ c ∈ name, isWordChar c) (hw' : Trimmed w') :
    ∃ inner', w' = name ++ '(' :: (inner' ++ [')']) ∧
      Padded (some '(') (some ')') inner inner' := by
  obtain ⟨u', v', rfl, hu, hv⟩ := h.exists_of_append_cons
  obtain ⟨inner', t, rfl, hinner', ht⟩ := hv.exists_of_append_cons
  obtain ⟨s, hs, rfl⟩ := hu.exists_blanks_of_isWordChar hname
  have hstart : s = [] := Trimmed.eq_nil_of_blanks_append (by simpa using hw') hs
  have hend : t = [] := by
    cases ht with
    | nil ht =>
      have htrimmed : Trimmed (s ++ name ++ '(' :: (inner' ++ [')']) ++ t) := by simpa using hw'
      exact htrimmed.eq_nil_of_append_blanks ht
  exact ⟨inner', by simp [hstart, hend], hinner'⟩

/-- Only a call is padded to a call, and only a group to a group. -/
theorem exists_parentheses (name : Fragment) {inner' : Fragment}
    (h : Padded none none w (name ++ '(' :: (inner' ++ [')'])))
    (hname : ∀ c ∈ name, isWordChar c) (hw' : Trimmed (name ++ '(' :: (inner' ++ [')']))) :
    ∃ inner, w = name ++ '(' :: (inner ++ [')']) ∧ Padded (some '(') (some ')') inner inner' := by
  obtain ⟨u, v, rfl, hu, hv⟩ := h.exists_of_eq_append_cons rfl (by decide)
  obtain ⟨inner, t, rfl, hinner, ht⟩ := hv.exists_of_eq_append_cons rfl (by decide)
  obtain ⟨s, hs, rfl⟩ := hu.exists_blanks_of_isWordChar fun c hc => hname c (hu.subset hc)
  have hstart : s = [] := Trimmed.eq_nil_of_blanks_append (by simpa using hw') hs
  have hend : t = [] := List.eq_nil_of_subset_nil ht.subset
  exact ⟨inner, by simp [hstart, hend], hinner⟩

/-- Nothing is put between parentheses with nothing in them. -/
theorem eq_nil_iff_of_parentheses (h : Padded (some '(') (some ')') w w') : w = [] ↔ w' = [] := by
  constructor
  · rintro rfl
    cases h with
    | nil hs hgap =>
      by_contra hne
      exact absurd (hgap hne) (by decide)
  · rintro rfl
    exact List.eq_nil_of_subset_nil h.subset

theorem isCall (h : Padded none none w w') (hw' : Trimmed w') (hcall : w'.IsCall) : w.IsCall := by
  obtain ⟨name, inner', hne, hname, hinner', rfl⟩ := hcall
  obtain ⟨inner, rfl, hinner⟩ := exists_parentheses name h hname hw'
  exact ⟨name, inner, hne, hname, mt hinner.eq_nil_iff_of_parentheses.1 hinner', rfl⟩

theorem isGroup (h : Padded none none w w') (hw' : Trimmed w') (hgroup : w'.IsGroup) :
    w.IsGroup := by
  obtain ⟨inner', hinner', rfl⟩ := hgroup
  obtain ⟨inner, rfl, hinner⟩ := exists_parentheses [] h (by simp) hw'
  exact ⟨inner, mt hinner.eq_nil_iff_of_parentheses.1 hinner', rfl⟩

/-! ## The search -/

/-- In front of a character with no place before it stands the same as before. -/
theorem head?_eq_some_iff (h : Padded before after w w') (hgap : ¬ Gap before (some c))
    (hc : isBlank c = false) : w.head? = some c ↔ w'.head? = some c := by
  have hblank : ∀ {s v : Fragment}, Blanks s → s ≠ [] → (s ++ v).head? ≠ some c := by
    intro s v hs hne hhead
    rw [List.head?_append_of_ne_nil _ hne] at hhead
    simp [hs c (List.mem_of_mem_head? hhead)] at hc
  cases h with
  | @nil _ _ s hs =>
    rcases eq_or_ne w' [] with rfl | hne
    · rfl
    · have := hblank (v := []) hs hne
      rw [List.append_nil] at this
      simp [this]
  | @cons _ _ d s w w' hs hgap' =>
    rcases eq_or_ne s [] with rfl | hne
    · rfl
    · have hd : d ≠ c := fun heq => hgap (heq ▸ hgap' hne)
      exact iff_of_false (by simpa using hd) (hblank hs hne)

/-- No place is inside a symbol. -/
theorem dropStart?_symbol (op : Operator) (h : Padded (some c) after w w') :
    Option.Rel (Padded op.symbol.getLast? after) (dropStart? op.symbol (c :: w))
      (dropStart? op.symbol (c :: w')) := by
  obtain ⟨d, hd | hd⟩ := op.symbol_eq_or
  · rw [hd]
    by_cases hdc : d = c
    · subst hdc
      simpa [dropStart?] using h
    · simp [dropStart?, hdc]
  · have hgap : ¬ Gap (some d) (some d) := by cases op <;> cases hd <;> decide
    have hblank : isBlank d = false := op.isBlank_of_mem_symbol (by simp [hd])
    rw [hd]
    by_cases hdc : d = c
    · subst hdc
      have hhead := h.head?_eq_some_iff hgap hblank
      by_cases hw : w.head? = some d
      · cases h with
        | nil => cases hw
        | @cons _ _ e s w w' hs hgap' h =>
          cases hw
          have hnil : s = [] := by_contra fun hne => hgap (hgap' hne)
          simpa [dropStart?, hnil] using h
      · have hw' := mt hhead.2 hw
        simp [dropStart?, Operator.dropStart?_singleton hw, Operator.dropStart?_singleton hw']
    · simp [dropStart?, hdc]

/-- Neither blanks in front of a character nor those behind it part it from another one like it. -/
theorem lone_iff {s : Fragment} (hs : Blanks s) (hgap : s ≠ [] → Gap before (some c))
    (h : Padded (some c) after w w') (hcc : ¬ Gap (some c) (some c)) (hc : isBlank c = false) :
    before ≠ some c ∧ w.head? ≠ some c ↔
      s.getLast?.or before ≠ some c ∧ w'.head? ≠ some c := by
  rw [Ne, Ne, h.head?_eq_some_iff hcc hc]
  refine and_congr_left fun _ => ?_
  cases s using List.reverseRecOn with
  | nil => rfl
  | append_singleton s d =>
    have hd : d ≠ c := by
      rintro rfl
      simp [hs d (by simp)] at hc
    have hbefore : before ≠ some c := fun heq => hcc (heq ▸ hgap (by simp))
    simp [hbefore, hd]

/-- Blanks in front of a character do not change whether an operator is found there. -/
theorem after? (op : Operator) {s : Fragment} (hs : Blanks s) (hgap : s ≠ [] → Gap before (some c))
    (h : Padded (some c) after w w') :
    Option.Rel (Padded none after) (op.after? before (c :: w))
      (op.after? (s.getLast?.or before) (c :: w')) := by
  have hdrop := h.dropStart?_symbol op
  rw [Operator.after?, Operator.after?]
  cases hw : dropStart? op.symbol (c :: w) with
  | none =>
    rw [(eq_none_iff_of_rel hdrop).1 hw]
    exact .none
  | some r =>
    have hhead : op.symbol.head? = some c := by
      have hsymbol := congrArg List.head? (Operator.eq_append_of_dropStart? hw)
      rw [List.head?_append_of_ne_nil _ op.symbol_ne_nil] at hsymbol
      exact hsymbol.symm
    rw [hw] at hdrop
    obtain ⟨r', hw', hr⟩ := exists_of_rel_some hdrop
    rw [hw']
    cases hdoubled : op.doubled? with
    | none => simpa [Option.filter_some] using hr.of_before
    | some longer =>
      have hlast : op.symbol.getLast? = some c := by
        cases op <;> cases hdoubled <;> exact hhead
      have hcc : ¬ Gap (some c) (some c) := by
        cases op <;> cases hdoubled <;> cases hhead <;> decide
      have hc : isBlank c = false := op.isBlank_of_mem_symbol (List.mem_of_mem_head? hhead)
      rw [hlast] at hr
      have hlone := lone_iff hs hgap hr hcc hc
      rw [hhead]
      simp only [Option.filter_some, Option.isNone_some, Bool.false_or, ← Bool.decide_and, hlone,
        decide_eq_true_eq]
      split
      · exact .some hr.of_before
      · exact .none

/-- The first place of an operator is padded on both sides. -/
theorem cutFrom (op : Operator) (h : Padded before after w w') :
    Option.Rel (fun parts parts' => Padded before none parts.1 parts'.1 ∧
      Padded none after parts.2 parts'.2) (op.cutFrom before w) (op.cutFrom before w') := by
  have hblank : ∀ {s : Fragment}, Blanks s → ∀ c ∈ s, c ∉ op.symbol := fun hs c hc =>
    mt op.mem_symbolChars (Operator.not_mem_symbolChars_of_blanks hs c hc)
  induction h with
  | @nil before after s hs =>
    rw [Operator.cutFrom_eq_none (hblank hs)]
    exact .none
  | @cons before after c s w w' hs hgap h ih =>
    rw [op.cutFrom_append (hblank hs), Operator.cutFrom, Operator.cutFrom]
    have hafter := h.after? op hs hgap
    generalize op.after? before (c :: w) = r, op.after? _ (c :: w') = r' at hafter ⊢
    cases hafter with
    | some hr => exact .some ⟨by simpa using Padded.nil hs fun _ => .inr (.inl rfl), hr⟩
    | none =>
      generalize op.cutFrom (some c) w = parts, op.cutFrom (some c) w' = parts' at ih ⊢
      cases ih with
      | none => exact .none
      | some hparts => exact .some ⟨.cons hs hgap hparts.1, hparts.2⟩

end Padded

/-! ## Recognition -/

variable {w w' : Fragment} {c c' : Capture}

/-- The captures differ only in the blanks at places of their parts. -/
inductive Capture.Padded : Capture → Capture → Prop
  | literal (value : Fragment) : Padded (.literal value) (.literal value)
  | call (name : Fragment) {u u' : Fragment} (h : Reckoner.Padded none none u u') :
      Padded (.call name u) (.call name u')
  | group {u u' : Fragment} (h : Reckoner.Padded none none u u') : Padded (.group u) (.group u')
  | binary (op : Operator) {l l' r r' : Fragment} (hl : Reckoner.Padded none none l l')
      (hr : Reckoner.Padded none none r r') : Padded (.binary l op r) (.binary l' op r')

theorem FreeBelow.of_padded {k : Nat} (hfree : FreeBelow k w) (h : Padded none none w w') :
    FreeBelow k w' := by
  rw [freeBelow_iff] at hfree ⊢
  intro op hrank
  have hcut : op.cut w = none ↔ op.cut w' = none := eq_none_iff_of_rel (h.cutFrom op)
  rw [← Operator.cut_eq_none_iff, ← hcut, Operator.cut_eq_none_iff]
  exact hfree op hrank

/-- Padding changes a recognized fragment only in its parts. -/
theorem Fragment.Recognized.exists_padded (hc : Recognized w c) (h : Padded none none w w')
    (hw' : Trimmed w') : ∃ c', Recognized w' c' ∧ c.Padded c' := by
  cases hc with
  | literal hn =>
    cases h.eq_of_isLiteral hn hw'
    exact ⟨_, .literal hn, .literal _⟩
  | @call name inner hname hword hinner heq =>
    subst heq
    obtain ⟨inner', heq', hinner'⟩ := Padded.exists_of_parentheses name h hword hw'
    have hne := mt hinner'.eq_nil_iff_of_parentheses.2 hinner
    exact ⟨_, .call hname hword hne heq', .call name hinner'.of_before.of_after⟩
  | @group inner hinner heq =>
    subst heq
    obtain ⟨inner', heq', hinner'⟩ := Padded.exists_of_parentheses [] h (by simp) hw'
    have hne := mt hinner'.eq_nil_iff_of_parentheses.2 hinner
    exact ⟨_, .group hne heq', .group hinner'.of_before.of_after⟩
  | @binary op l r hliteral hcall hgroup hfree hcut =>
    have hparts := h.cutFrom op
    rw [show op.cutFrom none w = some (l, r) from hcut] at hparts
    obtain ⟨⟨l', r'⟩, hcut', hl, hr⟩ := exists_of_rel_some hparts
    have hliteral' : ¬ w'.IsLiteral := fun hn => by
      obtain ⟨n, rfl⟩ := hn
      exact hliteral (h.eq_of_not_blank (fun _ => n.isBlank_of_mem_text) ▸ ⟨n, rfl⟩)
    exact ⟨_, .binary hliteral' (mt (h.isCall hw') hcall) (mt (h.isGroup hw') hgroup)
      (hfree.of_padded h) hcut', .binary op hl.trimEnd hr.trimStart⟩

/-- Padding does not make a fragment recognized, and no such fragment can be padded inside. -/
theorem Padded.eq_of_classify_eq_none (h : Padded none none w w') (hw : Trimmed w)
    (hw' : Trimmed w') (hc : w.classify = none) : w' = w := by
  obtain ⟨-, -, -, hsymbol⟩ := classify_eq_none_iff.1 hc
  exact h.eq_of_not_mem hsymbol hw hw'

/-! ## Evaluation -/

namespace Traced

variable {α β : Type}

/-- The result, and the kinds and depths of the events on the way to it. -/
def outline (x : Traced α) : List (Kind × Nat) × Except EvalError α :=
  (x.events.map fun e => (e.kind, e.depth), x.result)

theorem outline_bind {x y : Traced α} {k k' : α → Traced β} (hxy : x.outline = y.outline)
    (hk : ∀ a, (k a).outline = (k' a).outline) : (x >>= k).outline = (y >>= k').outline := by
  obtain ⟨hevents, hresult⟩ := Prod.mk.inj hxy
  cases hx : x.result with
  | ok a =>
    obtain ⟨hevents', hresult'⟩ := Prod.mk.inj (hk a)
    rw [bind_of_ok hx, bind_of_ok (hresult ▸ hx)]
    simp only [outline, List.map_append, hevents, hevents', hresult']
  | error e =>
    rw [bind_of_error hx, bind_of_error (hresult ▸ hx)]
    simp only [outline, hevents]

end Traced

theorem outline_runCapture {limit depth : Nat} (h : c.Padded c')
    (ih : ∀ p ∈ c.parts, ∀ p', Padded none none p p' →
      (run limit (depth + 1) p').outline = (run limit (depth + 1) p).outline) :
    (runCapture limit depth c').outline = (runCapture limit depth c).outline := by
  cases h with
  | literal value => rfl
  | call name hu =>
    exact Traced.outline_bind (ih _ (by simp [Capture.parts]) _ hu) fun x => rfl
  | group hu => exact ih _ (by simp [Capture.parts]) _ hu
  | binary op hl hr =>
    refine Traced.outline_bind (ih _ (by simp [Capture.parts]) _ hl) fun a => ?_
    exact Traced.outline_bind (ih _ (by simp [Capture.parts]) _ hr) fun b => rfl

theorem Padded.outline_run {limit depth : Nat} {text text' : Fragment}
    (h : Padded none none text text') :
    (run limit depth text').outline = (run limit depth text).outline := by
  induction text using Fragment.inductionOnParts generalizing depth text' with
  | step text ih =>
    rcases run_cases limit depth text with ⟨hlt, hrun⟩ | ⟨hle, hc, hrun⟩ | ⟨c, hle, hc, hrun⟩
    · rw [hrun, run_of_lt hlt]
    · have htrim := h.trim.eq_of_classify_eq_none (trimmed_trim _) (trimmed_trim _) hc
      rw [hrun, run_of_classify_eq_none hle (htrim ▸ hc), htrim]
    · obtain ⟨c', hc', hcapture⟩ :=
        (classify_eq_some_iff.1 hc).exists_padded h.trim (trimmed_trim _)
      have hkind : c'.kind = c.kind := by cases hcapture <;> rfl
      have hrest : (runCapture limit depth c').outline = (runCapture limit depth c).outline :=
        outline_runCapture hcapture fun p hp p' hp' => ih c hc p hp hp'
      obtain ⟨hevents, hresult⟩ := Prod.mk.inj hrest
      rw [hrun, run_of_classify hle (classify_eq_some_iff.2 hc')]
      simp only [Traced.outline, List.map_cons, Event.kind] at hevents ⊢
      rw [hkind, hevents, hresult]

/-- **Blanks next to operators do not matter.** A text with blanks put at places where they may be
put has the value or the error of the text without them, and its events have the same kinds and
depths. -/
theorem evaluate_padded {text text' : Fragment} (h : Padded none none text text') (limit : Nat) :
    evaluate text' limit = evaluate text limit ∧
    (trace text' limit).events.map (fun e => (e.kind, e.depth)) =
      (trace text limit).events.map fun e => (e.kind, e.depth) := by
  have houtline : (trace text' limit).outline = (trace text limit).outline := h.outline_run
  obtain ⟨hevents, hresult⟩ := Prod.mk.inj houtline
  exact ⟨hresult, hevents⟩

/-- Blanks around a run of stars, in front of a sign and around a percent sign. -/
theorem evaluate_padded_stars :
    Padded none none "2***-3%1".toList " 2 *** -3 % 1".toList ∧
    evaluate " 2 *** -3 % 1".toList 256 = evaluate "2***-3%1".toList 256 ∧
    (trace " 2 *** -3 % 1".toList 256).events.map (fun e => (e.kind, e.depth)) =
      (trace "2***-3%1".toList 256).events.map fun e => (e.kind, e.depth) := by
  have blank : Blanks [' '] := by decide
  have h : Padded none none "2***-3%1".toList " 2 *** -3 % 1".toList :=
    .cons blank (fun _ => by decide) <| .cons blank (fun _ => by decide) <| .keep <| .keep <|
      .cons blank (fun _ => by decide) <| .keep <| .cons blank (fun _ => by decide) <|
        .cons blank (fun _ => by decide) <| .refl _ _ []
  exact ⟨h, evaluate_padded h 256⟩

end Reckoner
