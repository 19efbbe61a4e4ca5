import Mathlib.Data.List.DropRight
import Reckoner.Proofs.Quoted
import Reckoner.Proofs.ReadBack
import Reckoner.Proofs.Replay

/-!
# Lines of the log

A line of the log has four parts, and each is read back from its own text.  The brace that opens the
capture is the first one, so the name of the kind ends in front of it, a field is named up to its
colon, and quoted text ends where reading it ends.  As the fragments in it are quoted, a line is a
single one, and no fragment makes it look like that of another event.
-/

namespace Reckoner

namespace Kind

/-! ## Kinds -/

/-- The names that the kinds have in a line. -/
def names : List (List Char × Kind) :=
  [("literal".toList, literal), ("call".toList, call), ("group".toList, group),
    ("binary `//`".toList, binary .floorDiv), ("binary `%`".toList, binary .mod),
    ("binary `**`".toList, binary .pow), ("binary `*`".toList, binary .mul),
    ("binary `/`".toList, binary .div), ("binary `+`".toList, binary .add),
    ("binary `-`".toList, binary .sub)]

/-- The kind of a name. -/
def ofName? (w : List Char) : Option Kind := names.lookup w

theorem ofName?_eq_some_iff {w : List Char} {k : Kind} : ofName? w = some k ↔ w = k.name := by
  constructor
  · intro h
    have hnames : ∀ entry ∈ names, entry.1 = entry.2.name := by decide +kernel
    obtain ⟨before, after, hsplit, -⟩ := List.lookup_eq_some_iff.1 h
    exact hnames (w, k) (by simp [hsplit])
  · rintro rfl
    cases k with
    | binary op => cases op <;> decide +kernel
    | _ => decide +kernel

theorem name_injective : Function.Injective name :=
  Function.IsPartialInv.injective fun _ _ => ofName?_eq_some_iff.trans eq_comm

end Kind

namespace Capture

/-! ## Captures -/

/-- A field as it is shown. -/
def showField (field : List Char × Fragment) : List Char :=
  field.1 ++ ": ".toList ++ Quoted.encode field.2

theorem display_eq (c : Capture) :
    c.display = '\x7b' :: ", ".toList.intercalate (c.fields.map showField) ++ ['\x7d'] := rfl

/-- Reads a field, and gives what follows it. -/
def readField? (w : List Char) : Option (List Char × Fragment × List Char) :=
  (Quoted.decode? ((cutAt ':' w).2.drop 1)).map fun (value, rest) => ((cutAt ':' w).1, value, rest)

theorem readField?_append {name : List Char} (h : ':' ∉ name) (value w : List Char) :
    readField? (showField (name, value) ++ w) = some (name, value, w) := by
  have hshow : showField (name, value) ++ w = name ++ ':' :: ' ' :: (Quoted.encode value ++ w) := by
    simp [showField]
  rw [readField?, hshow, cutAt_append_cons h, List.drop_one, List.tail_cons,
    Quoted.decode?_encode_append]
  rfl

/-- Reads a capture that is shown, behind the brace that opens it, and gives what follows it. -/
def read? (w : List Char) : Option (Capture × List Char) := do
  let (name, first, rest) ← readField? w
  if name = "value".toList then return (literal first, rest.drop 1)
  if name = "exp".toList then return (group first, rest.drop 1)
  let (_, second, rest) ← readField? (rest.drop 2)
  if name = "func_name".toList then return (call first second, rest.drop 1)
  let (_, third, rest) ← readField? (rest.drop 2)
  let op ← Operator.ofSymbol? second
  return (binary first op third, rest.drop 1)

/-- **Shown captures are read back**, whatever follows them. -/
theorem read?_append (c : Capture) (w : List Char) :
    read? (", ".toList.intercalate (c.fields.map showField) ++ '\x7d' :: w) = some (c, w) := by
  have hone : ∀ f, ", ".toList.intercalate [f] ++ '\x7d' :: w = f ++ '\x7d' :: w := by simp
  have hmore : ∀ f g fs, ", ".toList.intercalate (f :: g :: fs) ++ '\x7d' :: w =
      f ++ (", ".toList ++ (", ".toList.intercalate (g :: fs) ++ '\x7d' :: w)) := by simp
  cases c with
  | literal value =>
    rw [fields, List.map_singleton, hone, read?, readField?_append (by decide)]
    rfl
  | group inner =>
    rw [fields, List.map_singleton, hone, read?, readField?_append (by decide)]
    rfl
  | call name argument =>
    rw [fields, List.map_cons, List.map_singleton, hmore, hone, read?, readField?_append (by decide)]
    change readField? (showField ("exp".toList, argument) ++ '\x7d' :: w) >>= _ = _
    rw [readField?_append (by decide)]
    rfl
  | binary left op right =>
    rw [fields, List.map_cons, List.map_cons, List.map_singleton, hmore, hmore, hone, read?,
      readField?_append (by decide)]
    change readField? (showField ("op".toList, op.symbol) ++ _) >>= _ = _
    rw [readField?_append (by decide)]
    change readField? (showField ("exp2".toList, right) ++ '\x7d' :: w) >>= _ = _
    rw [readField?_append (by decide)]
    change Operator.ofSymbol? op.symbol >>= _ = _
    rw [Operator.ofSymbol?_symbol]
    rfl

theorem display_injective : Function.Injective display := by
  intro c d h
  have hread : ∀ c : Capture, read? c.display.tail = some (c, []) := fun c => by
    rw [display_eq, List.cons_append, List.tail_cons, read?_append]
  have heq := hread c
  rw [h, hread d] at heq
  cases heq
  rfl

theorem printable_name_of_mem_fields (c : Capture) : ∀ field ∈ c.fields, Printable field.1 := by
  have hnames : ∀ name ∈ ["value".toList, "func_name".toList, "exp".toList, "exp1".toList,
      "op".toList, "exp2".toList], Printable name := by
    decide +kernel
  intro field hfield
  refine hnames _ ?_
  cases c <;> simp only [fields, List.mem_cons, List.not_mem_nil, or_false] at hfield ⊢
  all_goals grind

theorem printable_display (c : Capture) : Printable c.display := by
  have hopen : Printable ['\x7b'] := by decide +kernel
  have hcolon : Printable ": ".toList := by decide +kernel
  have hcomma : Printable ", ".toList := by decide +kernel
  have hclose : Printable ['\x7d'] := by decide +kernel
  refine (hopen.append (hcomma.intercalate fun part hpart => ?_)).append hclose
  obtain ⟨field, hfield, rfl⟩ := List.mem_map.1 hpart
  exact ((c.printable_name_of_mem_fields field hfield).append hcolon).append
    (Quoted.printable_encode field.2)

end Capture

/-- What a line of the log tells.  Any kind may stand beside any capture. -/
structure LogLine where
  kind : Kind
  capture : Capture
  fragment : Fragment
  depth : Nat
deriving DecidableEq, Repr

namespace LogLine

/-! ## Lines -/

/-- The form of a line. -/
def text (l : LogLine) : List Char :=
  "DEBUG matched kind=".toList ++ l.kind.name ++ " capture=".toList ++ l.capture.display ++
    " fragment=".toList ++ Quoted.encode l.fragment ++ " depth=".toList ++ Nat.toDigits 10 l.depth

/-- What stands before the capture. -/
def opening (k : Kind) : List Char := "DEBUG matched kind=".toList ++ k.name ++ " capture=".toList

/-- Reads the kind from what stands before the capture. -/
def readKind? (w : List Char) : Option Kind :=
  Kind.ofName? ((w.drop "DEBUG matched kind=".length).rdrop " capture=".length)

/-- Reads the four parts of a line. -/
def read? (w : List Char) : Option LogLine := do
  let (opening, rest) := cutAt '\x7b' w
  let kind ← readKind? opening
  let (capture, rest) ← Capture.read? rest
  let (fragment, rest) ← Quoted.decode? (rest.drop " fragment=".length)
  return ⟨kind, capture, fragment, Decimal.ofDigits (rest.drop " depth=".length)⟩

/-- Reads a line, and no other text. -/
def ofText? (w : List Char) : Option LogLine := (read? w).filter (·.text = w)

theorem readKind?_opening (k : Kind) : readKind? (opening k) = some k := by
  have hstrip : ∀ before name after : List Char,
      ((before ++ name ++ after).drop before.length).rdrop after.length = name := by
    intro before name after
    rw [List.append_assoc, List.drop_left, List.rdrop_append_length]
  have hname := hstrip "DEBUG matched kind=".toList k.name " capture=".toList
  rw [String.length_toList, String.length_toList] at hname
  exact Kind.ofName?_eq_some_iff.2 hname

theorem opening_spec (k : Kind) : '\x7b' ∉ opening k ∧ Printable (opening k) := by
  cases k with
  | binary op => cases op <;> decide +kernel
  | _ => decide +kernel

theorem text_eq (l : LogLine) : l.text = opening l.kind ++ '\x7b' ::
    (", ".toList.intercalate (l.capture.fields.map Capture.showField) ++ '\x7d' ::
      (" fragment=".toList ++ (Quoted.encode l.fragment ++
        (" depth=".toList ++ Nat.toDigits 10 l.depth)))) := by
  have hassoc : ∀ (opening shown fragment quoted depth digits : List Char) (c d : Char),
      opening ++ (c :: shown ++ [d]) ++ fragment ++ quoted ++ depth ++ digits =
        opening ++ c :: (shown ++ d :: (fragment ++ (quoted ++ (depth ++ digits)))) := by simp
  exact hassoc ..

theorem read?_text (l : LogLine) : read? l.text = some l := by
  rw [read?, text_eq, cutAt_append_cons (opening_spec l.kind).1]
  change readKind? (opening l.kind) >>= _ = _
  rw [readKind?_opening]
  change Capture.read? _ >>= _ = _
  rw [Capture.read?_append]
  change Quoted.decode? (List.drop _ _) >>= _ = _
  rw [List.drop_left' String.length_toList, Quoted.decode?_encode_append]
  change some (LogLine.mk l.kind l.capture l.fragment (Decimal.ofDigits (List.drop _ _))) = some _
  rw [List.drop_left' String.length_toList, Decimal.ofDigits_toDigits]

theorem ofText?_eq_some_iff {w : List Char} {l : LogLine} : ofText? w = some l ↔ w = l.text := by
  rw [ofText?, Option.filter_eq_some_iff, decide_eq_true_eq]
  constructor
  · rintro ⟨-, htext⟩
    exact htext.symm
  · rintro rfl
    exact ⟨read?_text l, rfl⟩

/-- All four parts show in a line. -/
theorem text_injective : Function.Injective text :=
  Function.IsPartialInv.injective fun _ _ => ofText?_eq_some_iff.trans eq_comm

theorem printable_text (l : LogLine) : Printable l.text := by
  have hfragment : Printable " fragment=".toList := by decide +kernel
  have hdepth : Printable " depth=".toList := by decide +kernel
  exact (((((opening_spec l.kind).2.append l.capture.printable_display).append hfragment).append
    (Quoted.printable_encode l.fragment)).append hdepth).append
      (printable_toDigits (by decide) (by decide) l.depth)

end LogLine

namespace Event

/-! ## Events -/

theorem line_eq (e : Event) : e.line = LogLine.text ⟨e.kind, e.capture, e.fragment, e.depth⟩ := rfl

theorem line_injective : Function.Injective line := by
  rintro ⟨capture, fragment, depth⟩ ⟨capture', fragment', depth'⟩ h
  rw [line_eq, line_eq] at h
  obtain ⟨-, rfl, rfl, rfl⟩ := LogLine.mk.inj (LogLine.text_injective h)
  rfl

/-! ## Whole logs -/

/-- The lines of some events, each with its end. -/
def log (events : List Event) : List Char := events.flatMap fun e => e.line ++ ['\n']

theorem log_cons (e : Event) (events : List Event) :
    log (e :: events) = e.line ++ '\n' :: log events := by
  simp [log]

theorem log_injective : Function.Injective log := by
  have hline : ∀ e : Event, '\n' ∉ e.line := by
    intro e h
    have hprintable := LogLine.printable_text ⟨e.kind, e.capture, e.fragment, e.depth⟩ _ h
    exact not_isControl_of_isPrintable hprintable (.inl (by decide))
  intro events
  induction events with
  | nil =>
    intro events' h
    cases events' with
    | nil => rfl
    | cons f events' => simp [log] at h
  | cons e events ih =>
    intro events' h
    cases events' with
    | nil => simp [log] at h
    | cons f events' =>
      have hcut := congrArg (cutAt '\n') h
      rw [log_cons, log_cons, cutAt_append_cons (hline e), cutAt_append_cons (hline f)] at hcut
      obtain ⟨hfirst, hrest⟩ := Prod.mk.inj hcut
      rw [line_injective hfirst, ih hrest]

end Event

/-- **Lines of the log.** Whatever text is evaluated, each event leaves one line of the same form,
with the kind that its fragment was recognized by and what the fragment was taken apart into.  All
characters of a line are printable, none is a control, and none is a blank but spaces.  Kind,
capture, fragment and depth are each read back from the line, and from no other text, so lines
differ as soon as one of the four does, whether or not the kind is that of the capture.  Kinds and
captures are told apart by their own texts too.  As no line holds the end of one, the log as a whole
shows which events there were, in which order. -/
theorem line_printable_and_injective :
    (∀ e : Event, e.line = LogLine.text ⟨e.kind, e.capture, e.fragment, e.depth⟩) ∧
    (∀ (text : Fragment) (limit : Nat), ∀ e ∈ (trace text limit).events,
      Fragment.classifyKind e.fragment = some (e.kind, e.capture)) ∧
    (∀ l : LogLine, ∀ c ∈ l.text, isPrintable c ∧ ¬ IsControl c ∧ (isBlank c → c = ' ')) ∧
    (∀ (w : List Char) (l : LogLine), LogLine.ofText? w = some l ↔ w = l.text) ∧
    (∀ (w : List Char) (k : Kind), Kind.ofName? w = some k ↔ w = k.name) ∧
    Function.Injective LogLine.text ∧
    Function.Injective Event.line ∧
    Function.Injective Kind.name ∧
    Function.Injective Capture.display ∧
    (∀ events events' : List Event, events.map Event.line = events'.map Event.line →
      events = events') ∧
    Function.Injective Event.log := by
  refine ⟨Event.line_eq, fun text limit e he => ?_, fun l c hc => ?_,
    fun _ _ => LogLine.ofText?_eq_some_iff, fun _ _ => Kind.ofName?_eq_some_iff,
    LogLine.text_injective, Event.line_injective, Kind.name_injective, Capture.display_injective,
    fun _ _ h => List.map_injective_iff.2 Event.line_injective h, Event.log_injective⟩
  · rw [Fragment.classifyKind_eq, classify_of_mem_events he]
    rfl
  · have hprintable := l.printable_text c hc
    exact ⟨hprintable, not_isControl_of_isPrintable hprintable, eq_space_of_isBlank hprintable⟩

/-- A line break and quotes of a fragment are escaped in the line. -/
example :
    Event.line ⟨.binary "1".toList .add "\"\n\"".toList, "1 + \"\n\"".toList, 2⟩ =
      ("DEBUG matched kind=binary `+` capture=\x7bexp1: \"1\", op: \"+\", " ++
        "exp2: \"\\\"\\n\\\"\"\x7d fragment=\"1 + \\\"\\n\\\"\" depth=2").toList := by
  decide +kernel

end Reckoner
