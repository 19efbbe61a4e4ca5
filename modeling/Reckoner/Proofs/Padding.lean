import Reckoner.Proofs.Occurrence
import Reckoner.Proofs.Blank

/-!
# Blanks put into a text

Blanks may be put at the ends of a text, in front of a sign, and on both sides of a `%`, of a run of
`*` and of a run of `/`, at as many places as one likes.  Whether there is such a place depends only
on the two characters beside it, so the places inside a piece of a text are places of the text, and
the blanks that are put at its ends can be trimmed away.
-/

namespace Reckoner

/-- The places between two neighbours, or at an end of a text, where blanks may be put. -/
def Gap (before after : Option Char) : Prop :=
  before = none ∨ after = none ∨ after = some '+' ∨ after = some '-' ∨
  after = some '%' ∨ before = some '%' ∨
  before ≠ after ∧ (before = some '*' ∨ after = some '*' ∨ before = some '/' ∨ after = some '/')

instance (before after : Option Char) : Decidable (Gap before after) := by
  unfold Gap
  infer_instance

/-- The second text is the first one with blanks put at such places, where the texts stand between
these two neighbours. -/
inductive Padded : Option Char → Option Char → Fragment → Fragment → Prop
  | nil {before after : Option Char} {s : Fragment} (hs : Blanks s)
      (hgap : s ≠ [] → Gap before after) : Padded before after [] s
  | cons {before after : Option Char} {c : Char} {s w w' : Fragment} (hs : Blanks s)
      (hgap : s ≠ [] → Gap before (some c)) (h : Padded (some c) after w w') :
      Padded before after (c :: w) (s ++ c :: w')

namespace Padded

variable {before after : Option Char} {c : Char} {u v w w' : Fragment}

/-! ## The ends -/

theorem keep (h : Padded (some c) after w w') : Padded before after (c :: w) (c :: w') :=
  .cons .nil (fun hne => absurd rfl hne) h

theorem refl (before after : Option Char) (w : Fragment) : Padded before after w w := by
  induction w generalizing before with
  | nil => exact .nil .nil fun hne => absurd rfl hne
  | cons c w ih => exact (ih (some c)).keep

theorem of_before (h : Padded before after w w') : Padded none after w w' := by
  cases h with
  | nil hs => exact .nil hs fun _ => .inl rfl
  | cons hs _ h => exact .cons hs (fun _ => .inl rfl) h

theorem of_after (h : Padded before after w w') : Padded before none w w' := by
  induction h with
  | nil hs => exact .nil hs fun _ => .inr (.inl rfl)
  | cons hs hgap _ ih => exact .cons hs hgap ih

theorem subset (h : Padded before after w w') : w ⊆ w' := by
  induction h with
  | nil => exact List.nil_subset _
  | cons hs hgap _ ih => exact List.subset_append_of_subset_right _ (List.cons_subset_cons _ ih)

theorem mem_or_isBlank (h : Padded before after w w') : ∀ c ∈ w', c ∈ w ∨ isBlank c := by
  induction h with
  | nil hs => exact fun c hc => .inr (hs c hc)
  | cons hs hgap _ ih =>
    intro d hd
    rcases List.mem_append.1 hd with hd | hd
    · exact .inr (hs d hd)
    · rcases List.mem_cons.1 hd with rfl | hd
      · exact .inl List.mem_cons_self
      · exact (ih d hd).imp_left (List.mem_cons_of_mem _)

theorem blanks_iff (h : Padded before after w w') : Blanks w ↔ Blanks w' :=
  ⟨fun hw c hc => (h.mem_or_isBlank c hc).elim (hw c) id, fun hw' c hc => hw' c (h.subset hc)⟩

/-- Where no blank is, none has been put. -/
theorem eq_of_not_blank (h : Padded before after w w') (hw' : ∀ c ∈ w', isBlank c = false) :
    w' = w := by
  have hnil : ∀ {s : Fragment}, Blanks s → (∀ c ∈ s, isBlank c = false) → s = [] := by
    intro s hs hs'
    refine List.eq_nil_iff_forall_not_mem.2 fun c hc => ?_
    simpa [hs c hc] using hs' c hc
  induction h with
  | nil hs => exact hnil hs hw'
  | cons hs hgap _ ih =>
    cases hnil hs fun c hc => hw' c (List.mem_append_left _ hc)
    rw [ih fun c hc => hw' c (by simp [hc])]
    rfl

theorem trimStart (h : Padded before after w w') :
    Padded none after (trimStart w) (trimStart w') := by
  induction h with
  | nil hs =>
    rw [trimStart_eq_nil_iff.2 hs]
    exact .refl _ _ []
  | @cons before after c s w w' hs hgap h ih =>
    rw [trimStart_append_of_blanks hs]
    cases hc : isBlank c with
    | true => simpa [Reckoner.trimStart, hc] using ih
    | false =>
      have hcons : ∀ w, Reckoner.trimStart (c :: w) = c :: w := fun w => by
        simp [Reckoner.trimStart, hc]
      rw [hcons, hcons]
      exact h.keep

theorem trimEnd (h : Padded before after w w') : Padded before none (trimEnd w) (trimEnd w') := by
  induction h with
  | nil hs =>
    rw [trimEnd_eq_nil_iff.2 hs]
    exact .refl _ _ []
  | @cons before after c s w w' hs hgap h ih =>
    have hcons : Padded none after (c :: w) (c :: w') := h.keep
    by_cases hw : Reckoner.trimEnd (c :: w') = []
    · rw [trimEnd_eq_nil_iff] at hw
      rw [trimEnd_eq_nil_iff.2 (hs.append hw), trimEnd_eq_nil_iff.2 (hcons.blanks_iff.2 hw)]
      exact .refl _ _ []
    · have hw' : Reckoner.trimEnd (c :: w) ≠ [] := by
        rwa [Ne, trimEnd_eq_nil_iff, hcons.blanks_iff, ← trimEnd_eq_nil_iff]
      rw [trimEnd_append_of_ne_nil s hw, trimEnd_cons_of_ne_nil hw, trimEnd_cons_of_ne_nil hw']
      exact .cons hs hgap ih

theorem trim (h : Padded before after w w') : Padded none none (trim w) (trim w') :=
  h.trimStart.trimEnd

/-! ## Around a character -/

/-- A text with a character in it is padded on both sides of the character. -/
theorem exists_of_append_cons (h : Padded before after (u ++ c :: v) w') :
    ∃ u' v', w' = u' ++ c :: v' ∧ Padded before (some c) u u' ∧ Padded (some c) after v v' := by
  induction u generalizing before w' with
  | nil =>
    cases h with
    | cons hs hgap h => exact ⟨_, _, rfl, .nil hs hgap, h⟩
  | cons d u ih =>
    cases h with
    | @cons _ _ _ s _ _ hs hgap h =>
      obtain ⟨u', v', rfl, hu, hv⟩ := ih h
      exact ⟨s ++ d :: u', v', by simp, .cons hs hgap hu, hv⟩

/-- No character but blanks has been put in. -/
theorem exists_of_eq_append_cons {u' v' : Fragment} (h : Padded before after w w')
    (hw' : w' = u' ++ c :: v') (hc : isBlank c = false) :
    ∃ u v, w = u ++ c :: v ∧ Padded before (some c) u u' ∧ Padded (some c) after v v' := by
  induction h generalizing u' with
  | nil hs => simp [hs c (by simp [hw'])] at hc
  | @cons before after d s w w' hs hgap h ih =>
    obtain ⟨m, rfl, hm⟩ : ∃ m, u' = s ++ m ∧ d :: w' = m ++ c :: v' := by
      rcases List.append_eq_append_iff.1 hw' with ⟨m, hu, hm⟩ | ⟨m, rfl, hm⟩
      · exact ⟨m, hu, hm⟩
      cases m with
      | nil => exact ⟨[], by simp, hm.symm⟩
      | cons e m =>
        obtain ⟨rfl, -⟩ := List.cons.inj hm
        simp [hs c (by simp)] at hc
    cases m with
    | nil =>
      obtain ⟨rfl, rfl⟩ := List.cons.inj hm
      exact ⟨[], w, rfl, by simpa using Padded.nil hs hgap, h⟩
    | cons e m =>
      obtain ⟨rfl, hrest⟩ := List.cons.inj hm
      obtain ⟨u, v, rfl, hu, hv⟩ := ih hrest
      exact ⟨d :: u, v, rfl, .cons hs hgap hu, hv⟩

end Padded

end Reckoner
