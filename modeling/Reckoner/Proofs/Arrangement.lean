import Mathlib.Algebra.Ring.Nat
import Reckoner.CommandLine.Request

/-!
# Arrangements of a command line

A command line is a list of wishes, each a flag, a limit or contents, and there are many argument
lists that write the same wishes.  A command is arranged in an argument list that writes its
contents once and each of its options at most once, in any order; these are exactly the argument
lists that are read as this command.
-/

namespace Reckoner

inductive Flag
  | file | verbose
deriving DecidableEq, Repr

namespace Flag

def letter : Flag → Char
  | file => 'f'
  | verbose => 'v'

def word : Flag → String
  | file => "file"
  | verbose => "verbose"

end Flag

/-- One thing that arguments ask for. -/
inductive Wish
  | flag (f : Flag)
  | limit (n : Nat)
  | contents (text : String)
deriving DecidableEq, Repr

namespace Wish

def limit? : Wish → Option Nat
  | limit n => some n
  | _ => none

def contents? : Wish → Option String
  | contents text => some text
  | _ => none

end Wish

/-- Digits, with a plus sign before them or not, that write a number of 64 bits. -/
def WritesNatural (value : String) (n : Nat) : Prop :=
  ∃ plus digits, (plus = [] ∨ plus = ['+']) ∧ digits ≠ [] ∧ (∀ c ∈ digits, c.isDigit) ∧
    value.toList = plus ++ digits ∧ Decimal.ofDigits digits = n ∧ n < 2 ^ 64

/-- A dash and something behind it. -/
def LooksLikeOption (argument : String) : Prop := ∃ c rest, argument.toList = '-' :: c :: rest

/-- How an argument on its own writes wishes. -/
inductive Argument : List Wish → String → Prop
  | letters {flags : List Flag} (h : flags ≠ []) :
      Argument (flags.map .flag) (.ofList ('-' :: flags.map Flag.letter))
  | word (flag : Flag) : Argument [.flag flag] ("--" ++ flag.word)
  | limit {value : String} {n : Nat} (h : WritesNatural value n) :
      Argument [.limit n] ("--max-depth=" ++ value)
  | contents {text : String} (h : ¬ LooksLikeOption text) : Argument [.contents text] text

/-- How a list of arguments writes wishes. -/
inductive Written : List Wish → List String → Prop
  | nil : Written [] []
  | argument {wishes wishes' : List Wish} {argument : String} {arguments : List String}
      (h : Argument wishes argument) (rest : Written wishes' arguments) :
      Written (wishes ++ wishes') (argument :: arguments)
  | limit {wishes : List Wish} {value : String} {n : Nat} {arguments : List String}
      (h : WritesNatural value n) (rest : Written wishes arguments) :
      Written (.limit n :: wishes) ("--max-depth" :: value :: arguments)
  | dashes (texts : List String) : Written (texts.map .contents) ("--" :: texts)

/-- Are these the wishes for the command?  Nothing is asked for twice. -/
structure WishesFor (wishes : List Wish) (c : Command) : Prop where
  contents : wishes.filterMap Wish.contents? = [c.contents]
  fromFile : wishes.count (.flag .file) = c.fromFile.toNat
  verbose : wishes.count (.flag .verbose) = c.verbose.toNat
  limit : (wishes.filterMap Wish.limit? = [] ∧ c.limit = defaultLimit) ∨
    wishes.filterMap Wish.limit? = [c.limit]

/-- The command is written by the arguments, in one of many ways. -/
def Arranged (c : Command) (arguments : List String) : Prop :=
  ∃ wishes, Written wishes arguments ∧ WishesFor wishes c

/-! ## Numbers -/

theorem readNatural?_eq_some_iff {value : String} {n : Nat} :
    readNatural? value.toList = some n ↔ WritesNatural value n := by
  have read : ∀ digits : List Char, (if digits ≠ [] ∧ digits.all Char.isDigit ∧
      Decimal.ofDigits digits < 0x10000000000000000 then some (Decimal.ofDigits digits)
      else none) = some n ↔
        digits ≠ [] ∧ (∀ c ∈ digits, c.isDigit) ∧ Decimal.ofDigits digits = n ∧ n < 2 ^ 64 := by
    intro digits
    rw [Option.ite_none_right_eq_some, List.all_eq_true, Option.some.injEq]
    constructor
    · rintro ⟨⟨hne, hdigits, hlt⟩, rfl⟩
      exact ⟨hne, hdigits, rfl, hlt⟩
    · rintro ⟨hne, hdigits, rfl, hlt⟩
      exact ⟨⟨hne, hdigits, hlt⟩, rfl⟩
  rw [readNatural?, read]
  constructor
  · intro h
    split at h
    · next hplus =>
      obtain ⟨digits, hvalue⟩ := List.head?_eq_some_iff.1 hplus
      rw [hvalue, List.tail_cons] at h
      obtain ⟨hne, hdigits, hn, hlt⟩ := h
      exact ⟨['+'], digits, .inr rfl, hne, hdigits, hvalue, hn, hlt⟩
    · obtain ⟨hne, hdigits, hn, hlt⟩ := h
      exact ⟨[], value.toList, .inl rfl, hne, hdigits, rfl, hn, hlt⟩
  · rintro ⟨_, digits, rfl | rfl, hne, hdigits, hvalue, hn, hlt⟩
    · have hplus : value.toList.head? ≠ some '+' := by
        intro hplus
        have hmem : '+' ∈ digits := List.mem_of_mem_head? (by simpa [hvalue] using hplus)
        exact absurd (hdigits _ hmem) (by decide)
      rw [if_neg hplus, hvalue]
      exact ⟨hne, hdigits, hn, hlt⟩
    · rw [hvalue]
      exact ⟨hne, hdigits, hn, hlt⟩

/-- No number looks like an option. -/
theorem WritesNatural.not_startsWith {value : String} {n : Nat} (h : WritesNatural value n) :
    value.startsWith "-" = false := by
  obtain ⟨_, digits, rfl | rfl, hne, hdigits, hvalue, -, -⟩ := h
  all_goals
    rw [String.startsWith_string_eq_false_iff, hvalue]
    rintro ⟨rest, hrest⟩
  · have hmem : '-' ∈ digits := by
      rw [List.nil_append] at hrest
      simp [← hrest]
    exact absurd (hdigits _ hmem) (by decide)
  · simp at hrest

/-! ## Drafts and wishes -/

namespace Draft

variable {d d' : Draft}

/-- The draft with one more wish, unless the same has been asked for. -/
def take (d : Draft) : Wish → Option Draft
  | .flag .file => if d.fromFile then none else some { d with fromFile := true }
  | .flag .verbose => if d.verbose then none else some { d with verbose := true }
  | .limit n => if d.limit.isSome then none else some { d with limit := some n }
  | .contents text => if d.contents.isSome then none else some { d with contents := some text }

def takeAll (d : Draft) (wishes : List Wish) : Option Draft := wishes.foldlM take d

theorem takeAll_cons (wish : Wish) (wishes : List Wish) :
    d.takeAll (wish :: wishes) = (d.take wish).bind (·.takeAll wishes) := rfl

@[simp] theorem takeAll_singleton (wish : Wish) : d.takeAll [wish] = d.take wish :=
  Option.bind_fun_some _

theorem takeAll_append (wishes wishes' : List Wish) :
    d.takeAll (wishes ++ wishes') = (d.takeAll wishes).bind (·.takeAll wishes') :=
  List.foldlM_append

/-- A draft takes wishes as long as nothing is asked for twice. -/
theorem takeAll_eq_some_iff {wishes : List Wish} : d.takeAll wishes = some d' ↔
    d.contents.toList ++ wishes.filterMap Wish.contents? = d'.contents.toList ∧
    d.fromFile.toNat + wishes.count (.flag .file) = d'.fromFile.toNat ∧
    d.verbose.toNat + wishes.count (.flag .verbose) = d'.verbose.toNat ∧
    d.limit.toList ++ wishes.filterMap Wish.limit? = d'.limit.toList := by
  induction wishes generalizing d with
  | nil =>
    obtain ⟨contents, fromFile, verbose, limit⟩ := d
    obtain ⟨contents', fromFile', verbose', limit'⟩ := d'
    have hflag : ∀ a b : Bool, a.toNat = b.toNat ↔ a = b := by decide
    have hoption : ∀ {α : Type} (a b : Option α), a.toList = b.toList ↔ a = b := by
      intro α a b
      cases a <;> cases b <;> simp
    simp [takeAll, hflag, hoption]
  | cons wish wishes ih =>
    obtain ⟨contents, fromFile, verbose, limit⟩ := d
    have hflag : ∀ b : Bool, b.toNat ≤ 1 := by decide
    have hoption : ∀ {α : Type} (o : Option α) (a b : α) (l : List α), a :: b :: l ≠ o.toList := by
      intro α o a b l h
      simpa [← h] using o.length_toList_le
    rw [takeAll_cons]
    cases wish with
    | flag f =>
      cases f with
      | file =>
        have := hflag d'.fromFile
        cases fromFile <;>
          simp [take, ih, Wish.contents?, Wish.limit?, List.filterMap_cons] <;> omega
      | verbose =>
        have := hflag d'.verbose
        cases verbose <;>
          simp [take, ih, Wish.contents?, Wish.limit?, List.filterMap_cons] <;> omega
    | limit n =>
      have := hoption d'.limit
      cases limit <;> simp [take, ih, Wish.contents?, Wish.limit?, List.filterMap_cons, this]
    | contents text =>
      have := hoption d'.contents
      cases contents <;> simp [take, ih, Wish.contents?, Wish.limit?, List.filterMap_cons, this]

/-! ## Reading an argument -/

/-- A step and what follows it go on reading if both do. -/
theorem bind_eq_ok_inl_iff {x : Step} {k : Draft → Step} :
    (x >>= fun step => match step with
      | .inl e => k e
      | .inr request => .ok (.inr request)) = .ok (.inl d') ↔
      ∃ e, x = .ok (.inl e) ∧ k e = .ok (.inl d') := by
  rcases x with _ | _ | _ <;> simp [bind, Except.bind]

theorem setFile_eq_ok_iff {argument : String} :
    d.setFile argument = .ok (.inl d') ↔ d.take (.flag .file) = some d' := by
  rw [setFile, take]
  split <;> simp

theorem setVerbose_eq_ok_iff {argument : String} :
    d.setVerbose argument = .ok (.inl d') ↔ d.take (.flag .verbose) = some d' := by
  rw [setVerbose, take]
  split <;> simp

theorem setContents_eq_ok_iff {text : String} :
    d.setContents text = .ok (.inl d') ↔ d.take (.contents text) = some d' := by
  rw [setContents, take]
  split <;> simp

theorem setLimit_eq_ok_iff {value : String} :
    d.setLimit value = .ok (.inl d') ↔
      ∃ n, WritesNatural value n ∧ d.take (.limit n) = some d' := by
  simp only [setLimit, take, ← readNatural?_eq_some_iff]
  cases d.limit <;> cases readNatural? value.toList <;> simp

/-- A letter that stands for a flag is read before the letters behind it. -/
theorem readLetters_cons_iff {argument : String} {letters : List Char} (flag : Flag) {x : Step}
    (hx : ∀ e, x = .ok (.inl e) ↔ d.take (.flag flag) = some e)
    (ih : ∀ e : Draft, e.readLetters argument letters = .ok (.inl d') ↔ ∃ flags : List Flag,
      letters = flags.map Flag.letter ∧ e.takeAll (flags.map .flag) = some d') :
    (x >>= fun step => match step with
      | .inl e => e.readLetters argument letters
      | .inr request => .ok (.inr request)) = .ok (.inl d') ↔
      ∃ flags : List Flag, flag.letter :: letters = flags.map Flag.letter ∧
        d.takeAll (flags.map .flag) = some d' := by
  simp only [bind_eq_ok_inl_iff, hx, ih]
  constructor
  · rintro ⟨e, he, flags, rfl, htake⟩
    exact ⟨flag :: flags, rfl, by simp [takeAll_cons, he, htake]⟩
  · rintro ⟨_ | ⟨flag', flags⟩, hletters, htake⟩
    · cases hletters
    obtain ⟨hletter, hrest⟩ := List.cons.inj hletters
    obtain rfl : flag = flag' := by cases flag <;> cases flag' <;> first | rfl | cases hletter
    obtain ⟨e, he, htake⟩ := Option.bind_eq_some_iff.1 htake
    exact ⟨e, he, flags, hrest, htake⟩

/-- Letters behind a dash are read if all of them stand for flags. -/
theorem readLetters_eq_ok_iff {argument : String} {letters : List Char} :
    d.readLetters argument letters = .ok (.inl d') ↔ ∃ flags : List Flag,
      letters = flags.map Flag.letter ∧ d.takeAll (flags.map .flag) = some d' := by
  have noFlag : ∀ {d : Draft} {letter : Char} {letters : List Char},
      (∀ flag : Flag, flag.letter ≠ letter) → ¬ ∃ flags : List Flag,
        letter :: letters = flags.map Flag.letter ∧ d.takeAll (flags.map .flag) = some d' := by
    rintro d letter letters hletter ⟨_ | ⟨flag, flags⟩, hletters, -⟩
    · cases hletters
    · exact hletter flag (List.cons.inj hletters).1.symm
  fun_induction readLetters d argument letters with
  | case1 d =>
    constructor
    · rintro ⟨⟩
      exact ⟨[], rfl, rfl⟩
    · rintro ⟨flags, hnil, htake⟩
      obtain rfl := List.map_eq_nil_iff.1 hnil.symm
      cases htake
      rfl
  | case2 d rest _ ih => exact readLetters_cons_iff .file (fun _ => setFile_eq_ok_iff) ih
  | case3 d rest _ ih => exact readLetters_cons_iff .verbose (fun _ => setVerbose_eq_ok_iff) ih
  | case4 => exact iff_of_false nofun (noFlag (by rintro ⟨⟩ <;> decide))
  | case5 => exact iff_of_false nofun (noFlag (by rintro ⟨⟩ <;> decide))
  | case6 d letter rest _ hf hv =>
    refine iff_of_false nofun (noFlag ?_)
    rintro ⟨⟩ hletter
    · exact hf hletter.symm
    · exact hv hletter.symm

/-- A word behind two dashes is read if it names a flag, or the limit with its value. -/
theorem readWord_eq_ok_iff {argument word : String} {value : Option String} :
    d.readWord argument word value = .ok (.inl d') ↔
      (∃ flag : Flag, word = flag.word ∧ value = none ∧ d.take (.flag flag) = some d') ∨
      ∃ v n, word = "max-depth" ∧ value = some v ∧ WritesNatural v n ∧
        d.take (.limit n) = some d' := by
  have hflag : ∀ P : Flag → Prop, (∃ flag, P flag) ↔ P .file ∨ P .verbose := fun P =>
    ⟨fun ⟨flag, h⟩ => by cases flag <;> simp [h], fun h => h.elim (⟨_, ·⟩) (⟨_, ·⟩)⟩
  rw [hflag]
  fun_cases readWord d argument word value with
  | case1 v => simp [setLimit_eq_ok_iff]
  | case2 => simp [Flag.word]
  | case3 => simp [Flag.word, setFile_eq_ok_iff]
  | case4 => simp [Flag.word, setVerbose_eq_ok_iff]
  | case5 => simp [Flag.word]
  | case6 => simp [Flag.word]
  | case7 _ _ hknown hlimit => simp [hknown, show word ≠ "max-depth" from hlimit]
  | case8 _ _ hunknown hlimit => simp [hunknown, show word ≠ "max-depth" from hlimit]
  | case9 _ _ hfile hverbose =>
    simp [Flag.word, show word ≠ "file" from hfile, show word ≠ "verbose" from hverbose]

/-- An argument that writes wishes is read as just these. -/
theorem readArgument_of_argument {wishes : List Wish} {argument : String}
    (h : Argument wishes argument) (htake : d.takeAll wishes = some d') :
    d.readArgument argument = .ok (.inl d') := by
  rw [readArgument.eq_def]
  cases h with
  | @letters flags hne =>
    obtain ⟨flag, flags, rfl⟩ := List.exists_cons_of_ne_nil hne
    rw [String.toList_ofList]
    cases flag <;> exact readLetters_eq_ok_iff.2 ⟨_, rfl, htake⟩
  | word flag =>
    have hword : d.readWord ("--" ++ flag.word) flag.word none = .ok (.inl d') :=
      readWord_eq_ok_iff.2 (.inl ⟨flag, rfl, rfl, by simpa using htake⟩)
    cases flag <;> simpa [Flag.word] using hword
  | @limit value n hn =>
    have hword : d.readWord ("--max-depth=" ++ value) "max-depth" (some value) = .ok (.inl d') :=
      readWord_eq_ok_iff.2 (.inr ⟨value, n, rfl, rfl, hn, by simpa using htake⟩)
    simpa using hword
  | contents hcontents =>
    have hread : d.setContents argument = .ok (.inl d') :=
      setContents_eq_ok_iff.2 (by simpa using htake)
    split
    · next word hword => exact absurd ⟨_, _, hword⟩ hcontents
    · next letter rest _ hletters => exact absurd ⟨_, _, hletters⟩ hcontents
    · exact hread

/-- An argument is read if it writes wishes that the draft can take. -/
theorem readArgument_eq_ok_iff {argument : String} : d.readArgument argument = .ok (.inl d') ↔
    ∃ wishes, Argument wishes argument ∧ d.takeAll wishes = some d' := by
  refine ⟨fun h => ?_, fun ⟨wishes, hwishes, htake⟩ => readArgument_of_argument hwishes htake⟩
  revert h
  fun_cases readArgument d argument with
  | case1 word hargument =>
    intro h
    rcases readWord_eq_ok_iff.1 h with ⟨flag, hword, -, htake⟩ | ⟨v, n, -, hnone, -⟩
    · have hwritten : argument = "--" ++ flag.word := by
        rw [← String.toList_inj, hargument, ← hword]
        simp
      exact ⟨[.flag flag], hwritten ▸ .word flag, by simpa using htake⟩
    · cases hnone
  | case2 word hargument mark value hdrop =>
    intro h
    rcases readWord_eq_ok_iff.1 h with ⟨flag, -, hnone, -⟩ | ⟨v, n, hname, hvalue, hn, htake⟩
    · cases hnone
    · have hmark : mark = '=' := by
        have := List.head?_dropWhile_not (fun x => decide (x ≠ '=')) word
        rw [hdrop] at this
        simpa using this
      have hwritten : argument = "--max-depth=" ++ v := by
        have hword := List.takeWhile_append_dropWhile (p := (· ≠ '=')) (l := word)
        rw [hdrop, hmark] at hword
        rw [← String.toList_inj, hargument, ← hword, ← String.toList_ofList (l := word.takeWhile _),
          hname, ← Option.some.inj hvalue]
        simp
      exact ⟨[.limit n], hwritten ▸ .limit hn, by simpa using htake⟩
  | case3 letter rest _ hargument =>
    intro h
    obtain ⟨flags, hletters, htake⟩ := readLetters_eq_ok_iff.1 h
    have hwritten : argument = .ofList ('-' :: flags.map Flag.letter) := by
      rw [← String.toList_inj, hargument, hletters, String.toList_ofList]
    refine ⟨_, hwritten ▸ .letters ?_, htake⟩
    rintro rfl
    cases hletters
  | case4 _ hcontents =>
    intro h
    refine ⟨[.contents argument], .contents ?_, by simpa using setContents_eq_ok_iff.1 h⟩
    rintro ⟨letter, rest, hargument⟩
    exact hcontents letter rest hargument

/-! ## Reading a command line -/

theorem readAll_cons {argument : String} {arguments : List String} (hdashes : argument ≠ "--")
    (hlimit : argument = "--max-depth" → arguments = []) :
    d.readAll (argument :: arguments) = .ok (.inl d') ↔
      ∃ e, d.readArgument argument = .ok (.inl e) ∧ e.readAll arguments = .ok (.inl d') := by
  rw [readAll.eq_4 _ _ _ hdashes fun value rest h hrest => by simp [hlimit h] at hrest]
  exact bind_eq_ok_inl_iff

/-- Behind two dashes, all arguments are contents. -/
theorem readAll_dashes {texts : List String} : d.readAll ("--" :: texts) = .ok (.inl d') ↔
    d.takeAll (texts.map .contents) = some d' := by
  rw [readAll]
  induction texts generalizing d with
  | nil => simp [takeAll, pure, Except.pure]
  | cons text texts ih =>
    rw [List.foldlM_cons, List.map_cons, takeAll_cons]
    cases hcontents : d.contents with
    | none =>
      have hset : d.setContents text = .ok (.inl { d with contents := some text }) := by
        simp [setContents, hcontents]
      have htake : d.take (.contents text) = some { d with contents := some text } := by
        simp [take, hcontents]
      simp only [hset, htake]
      exact ih
    | some _ => simp [setContents, take, hcontents, bind, Except.bind]

theorem readAll_limit {value : String} {arguments : List String} :
    d.readAll ("--max-depth" :: value :: arguments) = .ok (.inl d') ↔
      ∃ n e, WritesNatural value n ∧ d.take (.limit n) = some e ∧
        e.readAll arguments = .ok (.inl d') := by
  rw [readAll]
  constructor
  · intro h
    split at h
    · cases h
    · obtain ⟨e, he, hrest⟩ := bind_eq_ok_inl_iff.1 h
      obtain ⟨n, hn, htake⟩ := setLimit_eq_ok_iff.1 he
      exact ⟨n, e, hn, htake, hrest⟩
  · rintro ⟨n, e, hn, htake, hrest⟩
    rw [if_neg (by simp [hn.not_startsWith])]
    exact bind_eq_ok_inl_iff.2 ⟨e, setLimit_eq_ok_iff.2 ⟨n, hn, htake⟩, hrest⟩

/-- Neither the two dashes nor the name of the limit write anything on their own. -/
theorem ne_of_argument {wishes : List Wish} {argument : String} (h : Argument wishes argument) :
    argument ≠ "--" ∧ argument ≠ "--max-depth" := by
  cases h with
  | @letters flags hne =>
    obtain ⟨flag, flags, rfl⟩ := List.exists_cons_of_ne_nil hne
    simp only [ne_eq, ← String.toList_inj, String.toList_ofList]
    cases flag <;> simp [Flag.letter]
  | word flag => cases flag <;> decide
  | limit => simp [← String.toList_inj]
  | contents hcontents =>
    constructor
    all_goals
      rintro rfl
      exact hcontents ⟨_, _, rfl⟩

/-- Arguments that write wishes are read as just these. -/
theorem readAll_of_written {wishes : List Wish} {arguments : List String}
    (h : Written wishes arguments) (htake : d.takeAll wishes = some d') :
    d.readAll arguments = .ok (.inl d') := by
  induction h generalizing d with
  | nil =>
    cases htake
    rfl
  | argument hargument _ ih =>
    rw [takeAll_append] at htake
    obtain ⟨e, he, hrest⟩ := Option.bind_eq_some_iff.1 htake
    obtain ⟨hdashes, hlimit⟩ := ne_of_argument hargument
    exact (readAll_cons hdashes fun h => absurd h hlimit).2
      ⟨e, readArgument_of_argument hargument he, ih hrest⟩
  | limit hn _ ih =>
    obtain ⟨e, he, hrest⟩ := Option.bind_eq_some_iff.1 htake
    exact readAll_limit.2 ⟨_, e, hn, he, ih hrest⟩
  | dashes texts => exact readAll_dashes.2 htake

/-- Arguments are read if they write wishes that the draft can take. -/
theorem readAll_eq_ok_iff {arguments : List String} : d.readAll arguments = .ok (.inl d') ↔
    ∃ wishes, Written wishes arguments ∧ d.takeAll wishes = some d' := by
  refine ⟨fun h => ?_, fun ⟨wishes, hwishes, htake⟩ => readAll_of_written hwishes htake⟩
  fun_induction readAll d arguments with
  | case1 d =>
    cases h
    exact ⟨[], .nil, rfl⟩
  | case2 d texts => exact ⟨_, .dashes texts, readAll_dashes.1 (by rw [readAll]; exact h)⟩
  | case3 d value arguments _ hoption =>
    cases h
  | case4 d value arguments _ hoption ih =>
    obtain ⟨e, he, hrest⟩ := bind_eq_ok_inl_iff.1 h
    obtain ⟨n, hn, htake⟩ := setLimit_eq_ok_iff.1 he
    obtain ⟨wishes, hwishes, htakeAll⟩ := ih e hrest
    exact ⟨_, .limit hn hwishes, by simp [takeAll_cons, htake, htakeAll]⟩
  | case5 d argument arguments _ _ ih =>
    obtain ⟨e, he, hrest⟩ := bind_eq_ok_inl_iff.1 h
    obtain ⟨wishes, hwishes, htake⟩ := readArgument_eq_ok_iff.1 he
    obtain ⟨wishes', hwishes', htakeAll⟩ := ih e hrest
    exact ⟨_, .argument hwishes hwishes', by simp [takeAll_append, htake, htakeAll]⟩

/-! ## What settles a request early -/

variable {c : Command}

theorem bind_ne_evaluate {x : Step} {k : Draft → Step} (hx : x ≠ .ok (.inr (.evaluate c)))
    (hk : ∀ e, k e ≠ .ok (.inr (.evaluate c))) :
    (x >>= fun step => match step with
      | .inl e => k e
      | .inr request => .ok (.inr request)) ≠ .ok (.inr (.evaluate c)) := by
  rcases x with _ | e | request
  · simp [bind, Except.bind]
  · exact hk e
  · exact hx

theorem setFile_ne_evaluate {argument : String} :
    d.setFile argument ≠ .ok (.inr (.evaluate c)) := by
  rw [setFile]
  split <;> simp

theorem setVerbose_ne_evaluate {argument : String} :
    d.setVerbose argument ≠ .ok (.inr (.evaluate c)) := by
  rw [setVerbose]
  split <;> simp

theorem setContents_ne_evaluate {text : String} :
    d.setContents text ≠ .ok (.inr (.evaluate c)) := by
  rw [setContents]
  split <;> simp

theorem setLimit_ne_evaluate {value : String} : d.setLimit value ≠ .ok (.inr (.evaluate c)) := by
  rw [setLimit]
  split <;> simp

theorem readLetters_ne_evaluate {argument : String} {letters : List Char} :
    d.readLetters argument letters ≠ .ok (.inr (.evaluate c)) := by
  fun_induction readLetters d argument letters with
  | case1 => simp
  | case2 d rest _ ih => exact bind_ne_evaluate setFile_ne_evaluate ih
  | case3 d rest _ ih => exact bind_ne_evaluate setVerbose_ne_evaluate ih
  | case4 d rest _ ih => exact bind_ne_evaluate (by simp) ih
  | case5 d rest _ ih => exact bind_ne_evaluate (by simp) ih
  | case6 d letter rest _ _ _ _ _ ih => exact bind_ne_evaluate (by simp) ih

theorem readWord_ne_evaluate {argument word : String} {value : Option String} :
    d.readWord argument word value ≠ .ok (.inr (.evaluate c)) := by
  fun_cases readWord d argument word value with
  | case1 => exact setLimit_ne_evaluate
  | case3 => exact setFile_ne_evaluate
  | case4 => exact setVerbose_ne_evaluate
  | case7 _ _ hknown => simp [hknown]
  | case8 _ _ hunknown => simp [hunknown]
  | _ => simp

theorem readArgument_ne_evaluate {argument : String} :
    d.readArgument argument ≠ .ok (.inr (.evaluate c)) := by
  fun_cases readArgument d argument with
  | case1 => exact readWord_ne_evaluate
  | case2 => exact readWord_ne_evaluate
  | case3 => exact readLetters_ne_evaluate
  | case4 => exact setContents_ne_evaluate

/-- Only the version and the help settle a request before the last argument. -/
theorem readAll_ne_evaluate {arguments : List String} :
    d.readAll arguments ≠ .ok (.inr (.evaluate c)) := by
  fun_induction readAll d arguments with
  | case1 => simp
  | case2 d texts =>
    induction texts generalizing d with
    | nil => simp [pure, Except.pure]
    | cons text texts ih =>
      rw [List.foldlM_cons]
      rcases hset : d.setContents text with _ | e | request
      · simp [hset, bind, Except.bind]
      · simp only [hset]
        exact ih e
      · rw [setContents] at hset
        split at hset <;> cases hset
  | case3 => simp [throw, throwThe, MonadExceptOf.throw, bind, Except.bind]
  | case4 d value arguments _ _ ih => exact bind_ne_evaluate setLimit_ne_evaluate ih
  | case5 d argument arguments _ _ ih => exact bind_ne_evaluate readArgument_ne_evaluate ih

end Draft

/-- The draft of a command that is read to the end. -/
theorem ofArguments_eq_ok_iff_draft {c : Command} {arguments : List String} :
    Request.ofArguments arguments = .ok (.evaluate c) ↔
      ∃ d : Draft, ({} : Draft).readAll arguments = .ok (.inl d) ∧ d.contents = some c.contents ∧
        d.fromFile = c.fromFile ∧ d.verbose = c.verbose ∧ d.limit.getD defaultLimit = c.limit := by
  rw [Request.ofArguments]
  rcases h : ({} : Draft).readAll arguments with e | d | request
  · simp [bind, Except.bind]
  · simp only [bind, Except.bind, Except.ok.injEq, Sum.inl.injEq, exists_eq_left']
    cases d.contents with
    | none => simp
    | some contents =>
      cases c
      simp
  · have : request ≠ .evaluate c := by
      rintro rfl
      exact Draft.readAll_ne_evaluate h
    simpa [bind, Except.bind] using this

theorem exists_draft_iff {wishes : List Wish} {c : Command} :
    (∃ d : Draft, ({} : Draft).takeAll wishes = some d ∧ d.contents = some c.contents ∧
      d.fromFile = c.fromFile ∧ d.verbose = c.verbose ∧ d.limit.getD defaultLimit = c.limit) ↔
      WishesFor wishes c := by
  simp only [Draft.takeAll_eq_some_iff, Option.toList_none, List.nil_append, Bool.toNat_false,
    Nat.zero_add]
  constructor
  · rintro ⟨d, ⟨hcontents, hfile, hverbose, hlimit⟩, hc, hf, hv, hl⟩
    refine ⟨by rw [hcontents, hc]; rfl, by rw [hfile, hf], by rw [hverbose, hv], ?_⟩
    rw [hlimit, ← hl]
    cases d.limit <;> simp
  · rintro ⟨hcontents, hfile, hverbose, hlimit⟩
    rcases hlimit with ⟨hnone, hdefault⟩ | hsome
    · exact ⟨⟨some c.contents, c.fromFile, c.verbose, none⟩, ⟨hcontents, hfile, hverbose, hnone⟩,
        rfl, rfl, rfl, hdefault.symm⟩
    · exact ⟨⟨some c.contents, c.fromFile, c.verbose, some c.limit⟩,
        ⟨hcontents, hfile, hverbose, hsome⟩, rfl, rfl, rfl, rfl⟩

/-- An argument list is read as a command exactly if the command is arranged in it. -/
theorem ofArguments_eq_ok_iff {c : Command} {arguments : List String} :
    Request.ofArguments arguments = .ok (.evaluate c) ↔ Arranged c arguments := by
  rw [ofArguments_eq_ok_iff_draft]
  constructor
  · rintro ⟨d, hread, hd⟩
    obtain ⟨wishes, hwishes, htake⟩ := Draft.readAll_eq_ok_iff.1 hread
    exact ⟨wishes, hwishes, exists_draft_iff.1 ⟨d, htake, hd⟩⟩
  · rintro ⟨wishes, hwishes, hfor⟩
    obtain ⟨d, htake, hd⟩ := exists_draft_iff.2 hfor
    exact ⟨d, Draft.readAll_of_written hwishes htake, hd⟩

end Reckoner
