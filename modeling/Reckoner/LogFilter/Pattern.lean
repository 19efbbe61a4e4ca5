import Reckoner.Text.Blank
import Reckoner.Text.Word

/-! # Patterns

A pattern is a regular expression for the value of a field. Nothing is ever matched against it, so
all that matters is whether it can be compiled. The compiler works on bytes and has no tables of
Unicode: the classes behind a backslash, the edges of words, and letters of either case are there
only with the flag `u` off. With it off, in turn, nothing may match a part of a character.

Braces for counts do not occur: a filter ends a value at the closing one.
-/

namespace Reckoner.Pattern

/-- How deep groups, repetitions, classes and rows of parts may nest. -/
def depthLimit : Nat := 250

/-- The flags that bear on what may be written. -/
structure Mode where
  foldsCase : Bool := false
  unicode : Bool := true
  spaced : Bool := false
deriving DecidableEq, Repr

namespace Mode

/-- Switches flags on; behind a dash, off. -/
def switch (mode : Mode) (on : Bool) : List Char → Mode
  | [] => mode
  | '-' :: rest => mode.switch false rest
  | 'i' :: rest => { mode with foldsCase := on }.switch on rest
  | 'u' :: rest => { mode with unicode := on }.switch on rest
  | 'x' :: rest => { mode with spaced := on }.switch on rest
  | _ :: rest => mode.switch on rest

/-- Passes over blanks, and over comments from a number sign to the end of the line. -/
def skipSpace (inComment : Bool) : List Char → List Char
  | [] => []
  | c :: rest =>
    if inComment then skipSpace (c ≠ '\n') rest
    else if isBlank c then skipSpace false rest
    else if c = '#' then skipSpace true rest
    else c :: rest

/-- The text from the next character that counts. -/
def skip (mode : Mode) (text : List Char) : List Char :=
  if mode.spaced then skipSpace false text else text

/-- The character behind a dash. A number sign before it hides only itself. -/
def peek (mode : Mode) (text : List Char) : Option Char :=
  if mode.spaced then
    match text.dropWhile isBlank with
    | '#' :: rest => (rest.dropWhile isBlank).head?
    | rest => rest.head?
  else text.head?

end Mode

/-! ## Items -/

/-- The smallest parts of a pattern. -/
inductive Item
  /-- A character, which may have been spelled as a byte. -/
  | literal (c : Char) (asByte : Bool)
  /-- One of the classes of digits, blanks and word characters. -/
  | category (negated : Bool)
  | wordEdge
  | textEdge
  | any
deriving DecidableEq, Repr

namespace Item

/-- Can the item be compiled? -/
def compiles (mode : Mode) : Item → Bool
  | literal c asByte =>
    if mode.unicode then !mode.foldsCase else !asByte || decide (c.toNat < 0x80)
  | category negated => !mode.unicode && !negated
  | wordEdge => !mode.unicode
  | textEdge => true
  | any => mode.unicode

/-- Can the item be compiled inside of a class? -/
def compilesInClass (mode : Mode) : Item → Bool
  | literal c _ => if mode.unicode then !mode.foldsCase else decide (c.toNat < 0x80)
  | category negated => !mode.unicode && !negated
  | _ => false

end Item

def hexDigit? (c : Char) : Option Nat :=
  if c.isDigit then some (c.toNat - '0'.toNat)
  else if 'a'.toNat ≤ c.toNat ∧ c.toNat ≤ 'f'.toNat then some (c.toNat - 'a'.toNat + 10)
  else if 'A'.toNat ≤ c.toNat ∧ c.toNat ≤ 'F'.toNat then some (c.toNat - 'A'.toNat + 10)
  else none

/-- Reads the hexadecimal digits of a character, as many as are left. -/
def readHex? (mode : Mode) (asByte : Bool) : Nat → Nat → List Char → Option (Item × List Char)
  | 0, value, rest =>
    if value < 0xd800 ∨ 0xdfff < value ∧ value < 0x110000 then
      some (.literal (.ofNat value) asByte, rest)
    else none
  | left + 1, value, text =>
    match mode.skip text with
    | [] => none
    | c :: rest => do readHex? mode asByte left (16 * value + (← hexDigit? c)) rest

/-- Reads what follows a backslash. Of ASCII, all but letters and digits stands for itself. -/
def readEscape? (mode : Mode) : List Char → Option (Item × List Char)
  | [] => none
  | c :: rest =>
    match c with
    | 'x' => readHex? mode true 2 0 rest
    | 'u' => readHex? mode false 4 0 rest
    | 'U' => readHex? mode false 8 0 rest
    | 'd' | 's' | 'w' => some (.category false, rest)
    | 'D' | 'S' | 'W' => some (.category true, rest)
    | 'b' | 'B' | '<' | '>' => some (.wordEdge, rest)
    | 'A' | 'z' => some (.textEdge, rest)
    | 'a' => some (.literal '\x07' false, rest)
    | 't' => some (.literal '\t' false, rest)
    | 'n' => some (.literal '\n' false, rest)
    | 'v' => some (.literal '\x0b' false, rest)
    | 'f' => some (.literal '\x0c' false, rest)
    | 'r' => some (.literal '\r' false, rest)
    | c => if c.toNat < 0x80 && !c.isAlphanum then some (.literal c false, rest) else none

/-! ## Depths -/

/-- How many parts stand side by side, and how deep the deepest of them nests. -/
structure Row where
  count : Nat := 0
  depth : Nat := 0
deriving DecidableEq, Repr

namespace Row

def push (r : Row) (depth : Nat) : Row := ⟨r.count + 1, Nat.max r.depth depth⟩

/-- What holds two parts or more together is one level of its own. -/
def total (r : Row) : Nat := if r.count < 2 then r.depth else r.depth + 1

end Row

/-! ## Classes -/

def classNames : List (List Char) :=
  ["alnum", "alpha", "ascii", "blank", "cntrl", "digit", "graph", "lower", "print", "punct",
    "space", "upper", "word", "xdigit"].map String.toList

/-- An open class. -/
structure OpenClass where
  /-- Have only dashes been read so far? -/
  opening : Bool := true
  /-- The depth of what stands left of the last set operation. -/
  left : Option Nat := none
  items : Row := {}
deriving DecidableEq, Repr

namespace OpenClass

def push (c : OpenClass) (depth : Nat) : OpenClass :=
  { c with opening := false, items := c.items.push depth }

def depth (c : OpenClass) : Nat :=
  match c.left with
  | none => c.items.total
  | some left => Nat.max left c.items.total + 1

end OpenClass

/-- Reads a class that goes by name, behind the bracket; tells whether it is negated. -/
def readNamedClass? : List Char → Option (Bool × List Char)
  | ':' :: rest =>
    let negated := decide (rest.head? = some '^')
    let rest := if negated then rest.tail else rest
    match rest.dropWhile (· ≠ ':') with
    | ':' :: ']' :: after =>
      if rest.takeWhile (· ≠ ':') ∈ classNames then some (negated, after) else none
    | _ => none
  | _ => none

/-- Reads a caret behind an opening bracket. What a negated class of bytes matches is not always a
whole character. -/
def readCaret? (mode : Mode) (text : List Char) : Option (List Char) :=
  match mode.skip text with
  | '^' :: rest => if mode.unicode then some rest else none
  | text => some text

def readClassItem? (mode : Mode) : List Char → Option (Item × List Char)
  | [] => none
  | '\\' :: rest => readEscape? mode rest
  | c :: rest => some (.literal c false, rest)

/-- Reads an item of a class or a range. A dash before a bracket or a second dash makes no range. -/
def readRange? (mode : Mode) (text : List Char) : Option (List Char) := do
  let (first, rest) ← readClassItem? mode text
  match mode.skip rest with
  | '-' :: more =>
    if mode.peek more = some ']' ∨ mode.peek more = some '-' then
      if first.compilesInClass mode then some ('-' :: more) else none
    else
      let (last, rest) ← readClassItem? mode (mode.skip more)
      match first, last with
      | .literal a _, .literal b _ =>
        if first.compilesInClass mode ∧ last.compilesInClass mode ∧ a.toNat ≤ b.toNat then
          some rest
        else none
      | _, _ => none
  | rest => if first.compilesInClass mode then some rest else none

/-- Reads on in the class `here`, which lies in the classes `outer`, up to the end of the outermost
one; tells its depth. -/
def readClass? (mode : Mode) :
    Nat → List OpenClass → OpenClass → List Char → Option (Nat × List Char)
  | 0, _, _, _ => none
  | fuel + 1, outer, here, text =>
    let plain := Item.literal '-' false
    match mode.skip text, here.opening with
    | '-' :: rest, true =>
      if plain.compilesInClass mode then
        readClass? mode fuel outer { here with items := here.items.push 0 } rest
      else none
    | ']' :: rest, opening =>
      if opening ∧ here.items.count = 0 then
        if plain.compilesInClass mode then readClass? mode fuel outer (here.push 0) rest else none
      else
        match outer with
        | [] => some (here.depth + 1, rest)
        | next :: outer => readClass? mode fuel outer (next.push (here.depth + 1)) rest
    | '&' :: '&' :: rest, _ | '-' :: '-' :: rest, _ | '~' :: '~' :: rest, _ =>
      readClass? mode fuel outer ⟨false, some here.depth, {}⟩ rest
    | '[' :: rest, _ =>
      match readNamedClass? rest with
      | some (negated, rest) =>
        if if mode.unicode then !mode.foldsCase else !negated then
          readClass? mode fuel outer (here.push 0) rest
        else none
      | none => do readClass? mode fuel (here :: outer) {} (← readCaret? mode rest)
    | text, _ => do readClass? mode fuel outer (here.push 0) (← readRange? mode text)

/-! ## Groups -/

/-- An open group, or the whole pattern. -/
structure OpenGroup where
  mode : Mode := {}
  branches : Row := {}
  parts : Row := {}
  /-- The depth of the last part, if a repetition may take it in. -/
  last : Option Nat := none
deriving DecidableEq, Repr

namespace OpenGroup

/-- All parts of the branch. -/
def row (g : OpenGroup) : Row :=
  match g.last with
  | none => g.parts
  | some depth => g.parts.push depth

def push (g : OpenGroup) (depth : Nat) : OpenGroup := { g with parts := g.row, last := some depth }

/-- Goes on with other flags. Flags are a part that cannot be repeated. -/
def pushFlags (g : OpenGroup) (mode : Mode) : OpenGroup :=
  { g with mode, parts := g.row.push 0, last := none }

def nextBranch (g : OpenGroup) : OpenGroup :=
  { g with branches := g.branches.push g.row.total, parts := {}, last := none }

def depth (g : OpenGroup) : Nat := g.nextBranch.branches.total

end OpenGroup

/-- Reads flags up to the colon or the parenthesis behind them. None may come twice, and the dash
not last. -/
def readFlags? (text : List Char) : Option (List Char × Char × List Char) :=
  let flags := text.takeWhile fun c => c ≠ ':' && c ≠ ')'
  match text.dropWhile fun c => c ≠ ':' && c ≠ ')' with
  | [] => none
  | stop :: rest =>
    if flags.all (['i', 'm', 's', 'U', 'u', 'R', 'x', '-'].contains ·) ∧
        flags.all (flags.count · = 1) ∧ flags.getLast? ≠ some '-' then
      some (flags, stop, rest)
    else none

/-- Can a group have this name? -/
def isGroupName : List Char → Bool
  | [] => false
  | c :: rest =>
    (c = '_' || isLetter c) && rest.all fun c => isWordChar c || ['.', '[', ']'].contains c

/-! ## Whole patterns -/

/-- A pattern read up to some place: the groups open there, and the names given to groups. -/
structure Reading where
  here : OpenGroup := {}
  outer : List OpenGroup := []
  names : List (List Char) := []
deriving DecidableEq, Repr

namespace Reading

def push (r : Reading) (depth : Nat) : Reading := { r with here := r.here.push depth }

def openGroup (r : Reading) (mode : Mode) : Reading :=
  { r with here := { mode }, outer := r.here :: r.outer }

/-- Reads what follows an opening parenthesis: a name, flags, or the parts of the group. -/
def readOpening? (r : Reading) (text : List Char) : Option (Reading × List Char) :=
  match r.here.mode.skip text with
  | '?' :: 'P' :: '<' :: rest | '?' :: '<' :: rest =>
    let name := rest.takeWhile (· ≠ '>')
    match rest.dropWhile (· ≠ '>') with
    | [] => none
    | _ :: rest =>
      if isGroupName name ∧ name ∉ r.names then
        some ({ r with names := name :: r.names }.openGroup r.here.mode, rest)
      else none
  | '?' :: rest =>
    match readFlags? rest with
    | none => none
    | some (flags, stop, rest) =>
      let mode := r.here.mode.switch true flags
      if stop = ':' then some (r.openGroup mode, rest)
      else if flags.isEmpty then none
      else some ({ r with here := r.here.pushFlags mode }, rest)
  | text => some (r.openGroup r.here.mode, text)

def pushItem? (r : Reading) (read : Item × List Char) : Option (Reading × List Char) :=
  if read.1.compiles r.here.mode then some (r.push 0, read.2) else none

/-- Reads one part, or one sign between parts. -/
def next? (r : Reading) (text : List Char) : Option (Reading × List Char) :=
  match text with
  | [] | '{' :: _ => none
  | '(' :: rest => r.readOpening? rest
  | ')' :: rest =>
    match r.outer with
    | [] => none
    | group :: outer => some (⟨group.push (r.here.depth + 1), outer, r.names⟩, rest)
  | '|' :: rest => some ({ r with here := r.here.nextBranch }, rest)
  | '[' :: rest => do
    let mode := r.here.mode
    let (depth, rest) ← readClass? mode rest.length [] {} (← readCaret? mode rest)
    return (r.push depth, rest)
  | '?' :: rest | '*' :: rest | '+' :: rest => do
    let depth ← r.here.last
    let rest := if rest.head? = some '?' then rest.tail else rest
    return ({ r with here := { r.here with last := some (depth + 1) } }, rest)
  | '\\' :: rest => (readEscape? r.here.mode rest).bind r.pushItem?
  | '.' :: rest => r.pushItem? (.any, rest)
  | '^' :: rest | '$' :: rest => r.pushItem? (.textEdge, rest)
  | c :: rest => r.pushItem? (.literal c false, rest)

/-- Reads on to the end, where no group may be open. Every part takes a character or more. -/
def accepts : Nat → Reading → List Char → Bool
  | fuel, r, text =>
    match fuel, r.here.mode.skip text with
    | _, [] => r.outer.isEmpty && decide (r.here.depth ≤ depthLimit)
    | 0, _ => false
    | fuel + 1, text =>
      match r.next? text with
      | some (r, rest) => accepts fuel r rest
      | none => false

end Reading

/-- Can the text be compiled? -/
def compiles (text : List Char) : Bool := Reading.accepts text.length {} text

end Reckoner.Pattern
