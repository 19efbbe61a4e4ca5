import Reckoner.LogFilter.Level
import Reckoner.LogFilter.Pattern
import Reckoner.Text.Bytes

/-! # Directives of log filters

A directive names a level, a target, or both as `target=level`; in brackets it can ask for a span,
for a field of the event, or for a field's value. Blanks around a directive do not count while its
marks are looked for, but they are not taken away: what it names is whatever stands in the full
text at the bytes that the marks have in the trimmed one. So ` debug` is no level but a target,
and ` target=debug` names neither. Names that would begin or end inside a character cannot be read.
-/

namespace Reckoner

/-- What is known of a kind of events before any of them happens. -/
structure LogSource where
  target : List Char
  fields : List (List Char)
  level : LogLevel

/-- One directive. It is about spans if it asks for one by name, or for the value of a field. -/
structure LogDirective where
  target : Option (List Char)
  field : Option (List Char)
  ofSpan : Bool
  level : LogLevel
deriving DecidableEq, Repr

namespace LogDirective

/-- Is the text an exponent, digits with or without a sign? -/
def isExponent (text : List Char) : Bool :=
  let digits := if text.head? = some '+' ∨ text.head? = some '-' then text.tail else text
  !digits.isEmpty && digits.all Char.isDigit

/-- Is the text a number without a sign: digits with a point among them or not, and an exponent or
none? -/
def isUnsigned (text : List Char) : Bool :=
  let whole := text.takeWhile Char.isDigit
  let afterWhole := text.dropWhile Char.isDigit
  let afterPoint := if afterWhole.head? = some '.' then afterWhole.tail else afterWhole
  let fraction := if afterWhole.head? = some '.' then afterPoint.takeWhile Char.isDigit else []
  !(whole ++ fraction).isEmpty &&
    match afterPoint.drop fraction.length with
    | [] => true
    | mark :: exponent => (mark = 'e' || mark = 'E') && isExponent exponent

/-- Can the value of a field be asked for like this, with a number or a pattern? All numbers
without a plus sign before them are patterns as well. -/
def isValue (text : List Char) : Bool :=
  Pattern.compiles text ||
    match text with
    | '+' :: rest =>
      isUnsigned rest ||
        ["inf", "infinity", "nan"].any (·.toList = rest.map Char.toLower)
    | _ => false

/-- Reads the level from byte `start` on; none at all lets everything through. -/
def readLevel? (text : List Char) (start : Nat) : Option LogLevel := do
  let (_, level) ← splitBytes? start text
  if level.isEmpty then some .trace else LogLevel.read? level

/-- Reads what may follow a closing bracket: nothing, or an equals sign and a level. Here and below,
`start` is the byte in the trimmed text where `rest` begins. -/
def readEnd? (text : List Char) (start : Nat) (rest : List Char) : Option LogLevel :=
  match rest with
  | [] => some .trace
  | '=' :: _ => readLevel? text (start + 1)
  | _ => none

/-- Reads a field, and its value behind an equals sign. -/
def readField? (field : List Char) : Option (List Char × Option (List Char)) :=
  match field.splitOn '=' with
  | [] => none
  | [name] => if name.isEmpty then none else some (name, none)
  | name :: value :: _ => if isValue value then some (name, some value) else none

/-- Reads what follows an opening bracket: a span, a field in braces, or both. -/
def readScope? (text : List Char) (target : Option (List Char)) (start : Nat) (rest : List Char) :
    Option LogDirective := do
  let span := rest.takeWhile fun c => c ≠ ']' && c ≠ '\x7b'
  let spanEnd := start + byteLength span
  let _ ← bytesBetween? start spanEnd text
  match rest.dropWhile fun c => c ≠ ']' && c ≠ '\x7b' with
  | [] => none
  | ']' :: rest => return ⟨target, none, true, ← readEnd? text (spanEnd + 1) rest⟩
  | _ :: rest =>
    let field := rest.takeWhile (· ≠ '\x7d')
    let fieldEnd := spanEnd + 1 + byteLength field
    match rest.dropWhile (· ≠ '\x7d') with
    | _ :: ']' :: rest =>
      let (name, value) ← readField? (← bytesBetween? (spanEnd + 1) fieldEnd text)
      let level ← readEnd? text (fieldEnd + 2) rest
      return ⟨target, some name, !span.isEmpty || value.isSome, level⟩
    | _ => none

/-- Reads one directive. A word alone is a level if it can be, else a target. -/
def read? (text : List Char) : Option LogDirective := do
  match trim text with
  | [] => none
  | '[' :: rest => readScope? text none 1 rest
  | c :: rest =>
    if !(isWordChar c || c = '-' || c = ':') then none
    else
      let word := (c :: rest).takeWhile fun c => c ≠ '=' && c ≠ '['
      match (c :: rest).dropWhile fun c => c ≠ '=' && c ≠ '[' with
      | [] =>
        match LogLevel.read? text with
        | some level => return ⟨none, none, false, level⟩
        | none => return ⟨some text, none, false, .trace⟩
      | mark :: rest =>
        let target ← bytesBetween? 0 (byteLength word) text
        let start := byteLength word + 1
        if mark = '=' then return ⟨some target, none, false, ← readLevel? text start⟩
        else readScope? text (some target) start rest

/-- Does the directive speak of such events, outside of every span? A target stands for all that
begin with it. -/
def fits (d : LogDirective) (source : LogSource) : Bool :=
  !d.ofSpan && d.target.all (·.isPrefixOf source.target) && d.field.all source.fields.contains

/-- Is `d` at least as specific as `e`, of two that fit the same events? A longer target comes
before a field, and fields go by their names. -/
def covers (d e : LogDirective) : Bool :=
  let length (target : Option (List Char)) := target.elim 0 fun t => t.length + 1
  let codes (field : Option (List Char)) := field.elim [] fun name => 0 :: name.map Char.toNat
  if length d.target = length e.target then
    !(codes d.field).lex (codes e.field) fun m n => decide (m < n)
  else decide (length e.target < length d.target)

end LogDirective

end Reckoner
