import Mathlib.Data.List.DropRight
import Reckoner.Text.Blank
import Reckoner.Text.Word

/-!
# Trimming

A text is its trimmed core between two runs of blanks, and the core is all that trimming looks at:
blanks may be put around a text or taken away without changing it.
-/

namespace Reckoner

/-- A run of blanks, which may be empty. -/
def Blanks (s : List Char) : Prop := ∀ c ∈ s, isBlank c

instance : DecidablePred Blanks := fun s => decidable_of_iff (s.all isBlank) List.all_eq_true

/-- A text without blanks at its ends. -/
def Trimmed (w : List Char) : Prop := trim w = w

namespace Blanks

variable {s t : List Char}

theorem nil : Blanks [] := by simp [Blanks]

theorem append (hs : Blanks s) (ht : Blanks t) : Blanks (s ++ t) := by
  intro c hc
  rcases List.mem_append.1 hc with h | h
  · exact hs c h
  · exact ht c h

theorem not_mem (hs : Blanks s) {c : Char} (hc : isBlank c = false) : c ∉ s := by
  intro hmem
  simp [hs c hmem] at hc

/-- A piece without blanks that lies in a text followed by blanks lies in the text. -/
theorem isInfix_of_append {v l : List Char} (hs : Blanks s) (hv : ∀ c ∈ v, isBlank c = false)
    (h : v <:+: l ++ s) : v <:+: l := by
  induction s using List.reverseRecOn with
  | nil => simpa using h
  | append_singleton s c ih =>
    rw [← List.append_assoc, List.infix_concat_iff] at h
    rcases h with h | h
    · rcases List.suffix_concat_iff.1 h with rfl | ⟨t, rfl, -⟩
      · exact List.nil_infix
      · exact absurd (hs c (by simp)) (by simp [hv c (by simp)])
    · exact ih (fun d hd => hs d (by simp [hd])) h

end Blanks

/-! ## Both ends -/

/-- Trimming at the end is dropping from the right. -/
theorem trimEnd_eq_rdropWhile (w : List Char) : trimEnd w = w.rdropWhile isBlank := by
  induction w with
  | nil => rfl
  | cons c w ih =>
    have step : (c :: w).rdropWhile isBlank =
        if w.rdropWhile isBlank = [] then [c].rdropWhile isBlank else c :: w.rdropWhile isBlank := by
      simp only [List.rdropWhile, List.reverse_cons, List.dropWhile_append, List.isEmpty_iff,
        List.reverse_eq_nil_iff]
      split
      · rfl
      · rw [List.reverse_append, List.reverse_singleton, List.singleton_append]
    rw [step, trimEnd, ih]
    cases h : w.rdropWhile isBlank with
    | nil => simp [List.rdropWhile_singleton]
    | cons d kept => simp

theorem exists_trimEnd_append (w : List Char) : ∃ s, Blanks s ∧ w = trimEnd w ++ s := by
  refine ⟨w.rtakeWhile isBlank, fun c hc => List.mem_rtakeWhile_imp hc, ?_⟩
  rw [trimEnd_eq_rdropWhile, List.rdropWhile_append_rtakeWhile]

theorem exists_append_trimStart (w : List Char) : ∃ s, Blanks s ∧ w = s ++ trimStart w :=
  ⟨w.takeWhile isBlank, fun _ hc => List.mem_takeWhile_imp hc, List.takeWhile_append_dropWhile.symm⟩

/-- A text is its trimmed core between blanks. -/
theorem exists_append_trim_append (w : List Char) :
    ∃ s t, Blanks s ∧ Blanks t ∧ w = s ++ trim w ++ t := by
  obtain ⟨s, hs, h⟩ := exists_append_trimStart w
  obtain ⟨t, ht, h'⟩ := exists_trimEnd_append (trimStart w)
  refine ⟨s, t, hs, ht, ?_⟩
  rw [trim, List.append_assoc, ← h', ← h]

theorem trimEnd_isInfix (w : List Char) : trimEnd w <:+: w := by
  obtain ⟨s, -, h⟩ := exists_trimEnd_append w
  exact ⟨[], s, h.symm⟩

theorem trimStart_isInfix (w : List Char) : trimStart w <:+: w := (List.dropWhile_suffix _).isInfix

theorem trim_isInfix (w : List Char) : trim w <:+: w := (trimEnd_isInfix _).trans (trimStart_isInfix w)

theorem trimEnd_trimEnd (w : List Char) : trimEnd (trimEnd w) = trimEnd w := by
  simp only [trimEnd_eq_rdropWhile, List.rdropWhile_idempotent]

theorem trimStart_trimStart (w : List Char) : trimStart (trimStart w) = trimStart w :=
  List.dropWhile_idempotent isBlank w

theorem trimEnd_append_of_blanks {s : List Char} (hs : Blanks s) (w : List Char) :
    trimEnd (w ++ s) = trimEnd w := by
  simp only [trimEnd_eq_rdropWhile, List.rdropWhile, List.reverse_append]
  rw [List.dropWhile_append_of_pos fun c hc => hs c (List.mem_reverse.1 hc)]

theorem trimStart_eq_nil_iff {w : List Char} : trimStart w = [] ↔ Blanks w :=
  List.dropWhile_eq_nil_iff

theorem trimEnd_eq_nil_iff {w : List Char} : trimEnd w = [] ↔ Blanks w := by
  rw [trimEnd_eq_rdropWhile, List.rdropWhile_eq_nil_iff, Blanks]

theorem trimEnd_cons_of_ne_nil {c : Char} {w : List Char} (h : trimEnd (c :: w) ≠ []) :
    trimEnd (c :: w) = c :: trimEnd w := by
  rw [trimEnd] at h ⊢
  cases hw : trimEnd w with
  | nil => simp_all
  | cons d kept => rfl

/-- Only the last part of a text is trimmed at the end, unless it is all blank. -/
theorem trimEnd_append_of_ne_nil {w : List Char} (v : List Char) (h : trimEnd w ≠ []) :
    trimEnd (v ++ w) = v ++ trimEnd w := by
  induction v with
  | nil => rfl
  | cons c v ih =>
    rw [List.cons_append, trimEnd, ih]
    cases hv : v ++ trimEnd w with
    | nil => exact absurd (List.append_eq_nil_iff.1 hv).2 h
    | cons d kept => rw [List.cons_append, hv]

theorem trimStart_append_of_blanks {s : List Char} (hs : Blanks s) (w : List Char) :
    trimStart (s ++ w) = trimStart w :=
  List.dropWhile_append_of_pos hs

theorem trimEnd_eq_self_iff {w : List Char} :
    trimEnd w = w ↔ ∀ c ∈ w.getLast?, isBlank c = false := by
  rw [trimEnd_eq_rdropWhile, List.rdropWhile_eq_self_iff]
  cases w using List.reverseRecOn <;> simp

theorem trimStart_eq_self_iff {w : List Char} :
    trimStart w = w ↔ ∀ c ∈ w.head?, isBlank c = false := by
  rw [trimStart, List.dropWhile_eq_self_iff]
  cases w <;> simp

/-! ## Trimmed texts -/

theorem trimmed_iff {w : List Char} : Trimmed w ↔ trimStart w = w ∧ trimEnd w = w := by
  constructor
  · intro h
    have hs : trimStart w = w := by
      refine (List.dropWhile_suffix _).eq_of_length_le ?_
      exact (congrArg List.length h).symm.le.trans (length_trimEnd_le _)
    exact ⟨hs, by rwa [Trimmed, trim, hs] at h⟩
  · rintro ⟨hs, he⟩
    rw [Trimmed, trim, hs, he]

namespace Trimmed

variable {w : List Char}

/-- What begins and ends with characters other than blanks is trimmed. -/
theorem of_ends (hs : ∀ c ∈ w.head?, isBlank c = false) (he : ∀ c ∈ w.getLast?, isBlank c = false) :
    Trimmed w :=
  trimmed_iff.2 ⟨trimStart_eq_self_iff.2 hs, trimEnd_eq_self_iff.2 he⟩

theorem head_not_blank (h : Trimmed w) : ∀ c ∈ w.head?, isBlank c = false :=
  trimStart_eq_self_iff.1 (trimmed_iff.1 h).1

theorem last_not_blank (h : Trimmed w) : ∀ c ∈ w.getLast?, isBlank c = false :=
  trimEnd_eq_self_iff.1 (trimmed_iff.1 h).2

theorem eq_nil_of_blanks_append {s : List Char} (h : Trimmed (s ++ w)) (hs : Blanks s) :
    s = [] := by
  cases s with
  | nil => rfl
  | cons c s =>
    have := h.head_not_blank c rfl
    simp [hs c (by simp)] at this

theorem eq_nil_of_append_blanks {s : List Char} (h : Trimmed (w ++ s)) (hs : Blanks s) :
    s = [] := by
  cases s using List.reverseRecOn with
  | nil => rfl
  | append_singleton s c =>
    have := h.last_not_blank c (by simp [List.getLast?_append])
    simp [hs c (by simp)] at this

theorem trimEnd_append (h : Trimmed w) {s : List Char} (hs : Blanks s) : trimEnd (w ++ s) = w := by
  rw [trimEnd_append_of_blanks hs, (trimmed_iff.1 h).2]

theorem trimStart_append (h : Trimmed w) {s : List Char} (hs : Blanks s) :
    trimStart (s ++ w) = w := by
  rw [trimStart_append_of_blanks hs, (trimmed_iff.1 h).1]

theorem trim_append_append (h : Trimmed w) {s t : List Char} (hs : Blanks s) (ht : Blanks t) :
    trim (s ++ w ++ t) = w := by
  rw [trim, List.append_assoc, trimStart_append_of_blanks hs]
  cases w with
  | nil =>
    rw [List.nil_append, trimStart_eq_nil_iff.2 ht]
    rfl
  | cons c w =>
    have hstart : trimStart (c :: w ++ t) = c :: w ++ t :=
      trimStart_eq_self_iff.2 fun d hd => h.head_not_blank d (by simpa using hd)
    rw [hstart, h.trimEnd_append ht]

/-- Trimmed texts at both ends make a trimmed text. -/
theorem append_append {l r : List Char} (hl : Trimmed l) (hr : Trimmed r) (hl' : l ≠ [])
    (hr' : r ≠ []) (x : List Char) : Trimmed (l ++ x ++ r) := by
  refine of_ends (fun c hc => ?_) (fun c hc => ?_)
  · rw [List.append_assoc, List.head?_append_of_ne_nil _ hl'] at hc
    exact hl.head_not_blank c hc
  · rw [List.getLast?_append_of_ne_nil _ hr'] at hc
    exact hr.last_not_blank c hc

/-- What stands first in a trimmed text is trimmed once the blanks behind it are gone. -/
theorem trimEnd_of_append {l r : List Char} (h : Trimmed (l ++ r)) : Trimmed (trimEnd l) := by
  refine trimmed_iff.2 ⟨trimStart_eq_self_iff.2 fun c hc => ?_, trimEnd_trimEnd l⟩
  obtain ⟨s, -, hl⟩ := exists_trimEnd_append l
  refine h.head_not_blank c ?_
  rw [hl, List.append_assoc, List.head?_append, Option.mem_def.1 hc]
  rfl

theorem trimStart_of_append {l r : List Char} (h : Trimmed (l ++ r)) : Trimmed (trimStart r) := by
  refine trimmed_iff.2 ⟨trimStart_trimStart r, trimEnd_eq_self_iff.2 fun c hc => ?_⟩
  obtain ⟨s, -, hr⟩ := exists_append_trimStart r
  refine h.last_not_blank c ?_
  rw [hr, ← List.append_assoc, List.getLast?_append, Option.mem_def.1 hc]
  rfl

end Trimmed

theorem trimmed_trim (w : List Char) : Trimmed (trim w) := by
  refine trimmed_iff.2 ⟨trimStart_eq_self_iff.2 fun c hc => ?_, trimEnd_trimEnd _⟩
  -- the first character of the core is the first character behind the blanks
  obtain ⟨t, -, h⟩ := exists_trimEnd_append (trimStart w)
  refine trimStart_eq_self_iff.1 (trimStart_trimStart w) c ?_
  rw [h, List.head?_append]
  simp only [trim, Option.mem_def] at hc
  simp [hc]

/-! ## Word characters are not blank -/

/-- The code points of the blanks, one by one. -/
def CharClass.blankPoints : List Nat :=
  List.range' 0x9 5 ++ [0x20, 0x85, 0xa0, 0x1680] ++ List.range' 0x2000 11 ++
    [0x2028, 0x2029, 0x202f, 0x205f, 0x3000]

theorem mem_blankPoints_of_isBlank {c : Char} (h : isBlank c) :
    c.toNat ∈ CharClass.blankPoints := by
  simp only [isBlank, CharClass.contains, CharClass.blank, CharClass.walk] at h
  generalize c.toNat = n at h ⊢
  simp only [CharClass.blankPoints, List.mem_append, List.mem_range'_1, List.mem_cons,
    List.not_mem_nil, or_false]
  grind

theorem isBlank_of_isWordChar {c : Char} (h : isWordChar c) : isBlank c = false := by
  have hpoints : CharClass.blankPoints.all fun n =>
      n != '_'.toNat && !CharClass.walk false n CharClass.alphanumeric.bounds := by
    decide +kernel
  by_contra hblank
  have hmem := mem_blankPoints_of_isBlank (Bool.not_eq_false _ ▸ hblank)
  have hpoint := List.all_eq_true.1 hpoints _ hmem
  rw [Bool.and_eq_true, bne_iff_ne, Bool.not_eq_true'] at hpoint
  rw [isWordChar, Bool.or_eq_true, decide_eq_true_eq, CharClass.contains, hpoint.2] at h
  rcases h with rfl | h
  · exact hpoint.1 rfl
  · cases h

end Reckoner
