import Reckoner.Proofs.Blank
import Reckoner.Text.Quoted

/-!
# Quoted text read back

Quoted text is read off one character after the other, up to a quote that no backslash stands before.
So where it ends does not depend on what is quoted, nor on what stands behind it.  All of it is
printable, which leaves no control and no separator but the space.
-/

namespace Reckoner

variable {c : Char} {w l r : List Char} {b : Nat}

/-! ## Controls and separators -/

/-- The category Cc. -/
def IsControl (c : Char) : Prop := c.toNat < 0x20 ∨ 0x7f ≤ c.toNat ∧ c.toNat < 0xa0

theorem not_isControl_of_isPrintable (h : isPrintable c) : ¬ IsControl c := by
  intro hcontrol
  -- the first two ranges of the table: the controls, and the no-break space behind them
  have hbounds : CharClass.invisible.bounds =
    0x0 :: 0x20 :: 0x7f :: 0xa1 :: CharClass.invisible.bounds.drop 4 := rfl
  have hinvisible : CharClass.invisible.contains c := by
    rw [CharClass.contains, hbounds]
    generalize CharClass.invisible.bounds.drop 4 = bounds
    rcases hcontrol with hlow | ⟨hlow, hhigh⟩
    · simp [CharClass.walk, hlow]
    · simp [CharClass.walk, show ¬ c.toNat < 0x20 by omega, show ¬ c.toNat < 0x7f by omega,
        show c.toNat < 0xa1 by omega]
  simp [isPrintable, hinvisible] at h

/-- Separators are blank, and of the blanks only the space is printable. -/
theorem eq_space_of_isBlank (h : isPrintable c) (hblank : isBlank c) : c = ' ' := by
  have hpoints : CharClass.blankPoints.all fun n =>
      n == ' '.toNat || CharClass.walk false n CharClass.invisible.bounds := by
    decide +kernel
  have hpoint := List.all_eq_true.1 hpoints _ (mem_blankPoints_of_isBlank hblank)
  rw [Bool.or_eq_true, beq_iff_eq] at hpoint
  rcases hpoint with hspace | hinvisible
  · exact Char.toNat_inj.1 hspace
  · simp [isPrintable, CharClass.contains, hinvisible] at h

/-! ## Printable text -/

/-- Are all characters printable? -/
def Printable (w : List Char) : Prop := ∀ c ∈ w, isPrintable c

namespace Printable

instance (w : List Char) : Decidable (Printable w) := List.decidableBAll _ w

theorem append (hl : Printable l) (hr : Printable r) : Printable (l ++ r) :=
  List.forall_mem_append.2 ⟨hl, hr⟩

theorem flatMap {α : Type} {f : α → List Char} {xs : List α} (h : ∀ x ∈ xs, Printable (f x)) :
    Printable (xs.flatMap f) := by
  intro c hc
  obtain ⟨x, hx, hcx⟩ := List.mem_flatMap.1 hc
  exact h x hx c hcx

theorem intercalate {parts : List (List Char)} (hw : Printable w)
    (h : ∀ part ∈ parts, Printable part) : Printable (w.intercalate parts) := by
  induction parts with
  | nil => exact List.forall_mem_nil _
  | cons part parts ih =>
    obtain ⟨hpart, hparts⟩ := List.forall_mem_cons.1 h
    cases parts with
    | nil => rwa [List.intercalate_singleton]
    | cons next parts =>
      rw [List.intercalate_cons_cons]
      exact (hpart.append hw).append (ih hparts)

end Printable

/-! ## Digits -/

/-- What holds for every digit holds for all characters of a number. -/
theorem forall_mem_toDigits {p : Char → Prop} (hb : 1 < b) (h : ∀ d < b, p (Nat.digitChar d))
    (n : Nat) : ∀ c ∈ Nat.toDigits b n, p c := by
  induction n using Nat.strongRecOn with
  | ind n ih =>
    rw [Nat.toDigits_eq_if hb]
    split
    · next hlt => simpa using h n hlt
    · next hle =>
      have hdiv : n / b < n := Nat.div_lt_self (by omega) hb
      refine List.forall_mem_append.2 ⟨ih _ hdiv, ?_⟩
      simpa using h _ (Nat.mod_lt n (by omega))

theorem printable_toDigits (hb : 1 < b) (hle : b ≤ 16) (n : Nat) :
    Printable (Nat.toDigits b n) := by
  have hdigits : ∀ k < 16, isPrintable (Nat.digitChar k) := by decide +kernel
  exact forall_mem_toDigits hb (fun k hk => hdigits k (hk.trans_le hle)) n

/-! ## Cutting at a character -/

/-- The text before the first place of the character, and the text behind it. -/
def cutAt (c : Char) (w : List Char) : List Char × List Char :=
  (w.takeWhile (· ≠ c), (w.dropWhile (· ≠ c)).tail)

theorem cutAt_append_cons (h : c ∉ l) (r : List Char) : cutAt c (l ++ c :: r) = (l, r) := by
  have hne : ∀ d ∈ l, decide (d ≠ c) := fun d hd => decide_eq_true (ne_of_mem_of_not_mem hd h)
  rw [cutAt, List.takeWhile_append_of_pos hne, List.dropWhile_append_of_pos hne]
  simp

theorem length_cutAt_le : (cutAt c w).2.length ≤ w.length := by
  rw [cutAt, List.length_tail]
  exact (Nat.sub_le _ _).trans (List.dropWhile_sublist _).length_le

namespace Quoted

/-! ## Quoted text is printable -/

theorem printable_escape (c : Char) : Printable (escape c) := by
  unfold escape
  split
  case h_7 =>
    split
    · simpa [Printable]
    · have hopen : Printable ['\\', 'u', '\x7b'] := by decide +kernel
      have hclose : Printable ['\x7d'] := by decide +kernel
      exact (hopen.append (printable_toDigits (by decide) le_rfl _)).append hclose
  all_goals decide +kernel

theorem printable_encode (text : List Char) : Printable (encode text) := by
  have hquote : Printable ['"'] := by decide +kernel
  exact (hquote.append (.flatMap fun c _ => printable_escape c)).append hquote

/-! ## Reading -/

def hexValue (c : Char) : Nat :=
  if c.isDigit then c.toNat - '0'.toNat else c.toNat - 'a'.toNat + 10

def ofHex (digits : List Char) : Nat := digits.foldl (fun n c => 16 * n + hexValue c) 0

/-- What a character behind a backslash stands for. -/
def ofLetter? : Char → Option Char
  | '"' => some '"'
  | '\\' => some '\\'
  | 'n' => some '\n'
  | 'r' => some '\r'
  | 't' => some '\t'
  | '0' => some '\x00'
  | _ => none

/-- Reads one character, and gives what follows it.  A quote ends the text instead. -/
def readChar? : List Char → Option (Char × List Char)
  | '\\' :: 'u' :: '\x7b' :: w => some (.ofNat (ofHex (cutAt '\x7d' w).1), (cutAt '\x7d' w).2)
  | '\\' :: c :: w => (ofLetter? c).map (·, w)
  | '\\' :: [] | '"' :: _ | [] => none
  | c :: w => some (c, w)

theorem length_lt_of_readChar? (h : readChar? w = some (c, r)) : r.length < w.length := by
  unfold readChar? at h
  split at h
  · next w =>
    cases h
    have := length_cutAt_le (c := '\x7d') (w := w)
    simp only [List.length_cons]
    omega
  · next d w _ =>
    obtain ⟨_, _, heq⟩ := Option.map_eq_some_iff.1 h
    cases heq
    simp only [List.length_cons]
    omega
  · cases h
  · cases h
  · cases h
  · cases h
    simp

/-- Reads characters up to the quote that ends the text, and gives what follows that. -/
def readText? (w : List Char) : Option (List Char × List Char) :=
  match _h : readChar? w with
  | some (c, rest) => (readText? rest).map fun (text, rest) => (c :: text, rest)
  | none => if w.head? = some '"' then some ([], w.tail) else none
termination_by w.length
decreasing_by exact length_lt_of_readChar? _h

/-- Reads quoted text, and gives what follows it. -/
def decode? : List Char → Option (List Char × List Char)
  | '"' :: w => readText? w
  | _ => none

theorem ofHex_toDigits (n : Nat) : ofHex (Nat.toDigits 16 n) = n := by
  have hdigit : ∀ d < 16, hexValue (Nat.digitChar d) = d := by decide
  induction n using Nat.strongRecOn with
  | ind n ih =>
    rw [Nat.toDigits_eq_if (by decide)]
    split
    · next hlt => simpa [ofHex] using hdigit n hlt
    · next hle =>
      have hlast := hdigit (n % 16) (Nat.mod_lt n (by decide))
      have hfront : ofHex (Nat.toDigits 16 (n / 16)) = n / 16 := ih _ (by omega)
      rw [ofHex, List.foldl_append, ← ofHex, hfront, List.foldl_cons, List.foldl_nil, hlast,
        Nat.div_add_mod]

theorem readChar?_escape_append (c : Char) (w : List Char) :
    readChar? (escape c ++ w) = some (c, w) := by
  unfold escape
  split
  case h_7 =>
    split
    · simp_all [readChar?]
    · have hhex : '\x7d' ∉ Nat.toDigits 16 c.toNat := fun h =>
        forall_mem_toDigits (p := (· ≠ '\x7d')) (by decide) (by decide) _ _ h rfl
      simp [readChar?, cutAt_append_cons hhex, ofHex_toDigits]
  all_goals rfl

theorem readText?_escape_append (c : Char) (w : List Char) :
    readText? (escape c ++ w) = (readText? w).map fun (text, rest) => (c :: text, rest) := by
  have hchar := readChar?_escape_append c w
  rw [readText?]
  split
  · next d rest hread =>
    cases hread.symm.trans hchar
    rfl
  · next hread => cases hread.symm.trans hchar

/-- **Quoted text is read back**, whatever follows it. -/
theorem decode?_encode_append (text w : List Char) :
    decode? (encode text ++ w) = some (text, w) := by
  have hread : readText? (text.flatMap escape ++ '"' :: w) = some (text, w) := by
    induction text with
    | nil =>
      rw [readText?]
      rfl
    | cons c text ih =>
      rw [List.flatMap_cons, List.append_assoc, readText?_escape_append, ih]
      rfl
  simpa [encode, decode?] using hread

end Quoted

end Reckoner
