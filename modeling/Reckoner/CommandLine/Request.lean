import Reckoner.Decimal.Natural
import Reckoner.Evaluation.Basic

/-! # Requests

Arguments are read from left to right, and the first one that settles the matter does: a fault, or
a wish for the version or for help. Options may stand on both sides of the contents; after `--`
nothing is an option.
-/

namespace Reckoner

/-- What is to be evaluated, and how. -/
structure Command where
  /-- The expression, or the name of the file that holds it. -/
  contents : String
  fromFile : Bool
  verbose : Bool
  limit : Nat
deriving DecidableEq, Repr

inductive Request
  | evaluate (command : Command)
  | showVersion
  | showHelp
deriving DecidableEq, Repr

inductive UsageError
  | unknownOption (argument : String)
  | repeatedOption (argument : String)
  | unneededValue (argument : String)
  | missingLimit
  | invalidLimit (value : String)
  | extraContents (argument : String)
  | missingContents
deriving DecidableEq, Repr

namespace UsageError

def message : UsageError → String
  | unknownOption argument => "unknown option '" ++ argument ++ "'"
  | repeatedOption argument => "option given twice: '" ++ argument ++ "'"
  | unneededValue argument => "this option takes no value: '" ++ argument ++ "'"
  | missingLimit => "--max-depth needs a value"
  | invalidLimit value => "not a number below 2^64: '" ++ value ++ "'"
  | extraContents argument => "one argument too many: '" ++ argument ++ "'"
  | missingContents => "nothing to evaluate"

end UsageError

/-- What has been read so far. -/
structure Draft where
  contents : Option String := none
  fromFile : Bool := false
  verbose : Bool := false
  limit : Option Nat := none
deriving DecidableEq, Repr

/-- Reading goes on with a draft, or an argument has settled the request. -/
abbrev Draft.Step := Except UsageError (Draft ⊕ Request)

namespace Draft

def setFile (d : Draft) (argument : String) : Step :=
  if d.fromFile then .error (.repeatedOption argument) else .ok (.inl { d with fromFile := true })

def setVerbose (d : Draft) (argument : String) : Step :=
  if d.verbose then .error (.repeatedOption argument) else .ok (.inl { d with verbose := true })

def setLimit (d : Draft) (value : String) : Step :=
  match d.limit, readNatural? value.toList with
  | some _, _ => .error (.repeatedOption "--max-depth")
  | none, some n => .ok (.inl { d with limit := some n })
  | none, none => .error (.invalidLimit value)

def setContents (d : Draft) (argument : String) : Step :=
  if d.contents.isSome then .error (.extraContents argument)
  else .ok (.inl { d with contents := some argument })

/-- The letters behind one dash, each of them an option. -/
def readLetters (d : Draft) (argument : String) : List Char → Step
  | [] => .ok (.inl d)
  | letter :: rest => do
    let step ←
      match letter with
      | 'f' => d.setFile argument
      | 'v' => d.setVerbose argument
      | 'V' => .ok (.inr .showVersion)
      | 'h' => .ok (.inr .showHelp)
      | _ => .error (.unknownOption argument)
    match step with
    | .inl d => d.readLetters argument rest
    | .inr request => .ok (.inr request)

/-- The word behind two dashes, with the value after an equals sign if there is one. -/
def readWord (d : Draft) (argument : String) (word : String) (value : Option String) : Step :=
  match word, value with
  | "max-depth", some value => d.setLimit value
  | "max-depth", none => .error .missingLimit
  | "file", none => d.setFile argument
  | "verbose", none => d.setVerbose argument
  | "version", none => .ok (.inr .showVersion)
  | "help", none => .ok (.inr .showHelp)
  | _, some _ =>
    if word ∈ ["file", "verbose", "version", "help"] then .error (.unneededValue argument)
    else .error (.unknownOption argument)
  | _, none => .error (.unknownOption argument)

/-- One argument before `--`. A dash alone is contents. -/
def readArgument (d : Draft) (argument : String) : Step :=
  match argument.toList with
  | '-' :: '-' :: word =>
    match word.dropWhile (· ≠ '=') with
    | [] => d.readWord argument (.ofList word) none
    | _ :: value =>
      d.readWord argument (.ofList (word.takeWhile (· ≠ '='))) (some (.ofList value))
  | '-' :: letter :: rest => d.readLetters argument (letter :: rest)
  | _ => d.setContents argument

/-- All arguments; the limit may be an argument of its own, unless it looks like an option. -/
def readAll (d : Draft) : List String → Step
  | [] => .ok (.inl d)
  | "--" :: rest =>
    rest.foldlM (fun step argument =>
      match step with
      | .inl d => d.setContents argument
      | .inr request => .ok (.inr request)) (.inl d)
  | "--max-depth" :: value :: rest => do
    if value.startsWith "-" then throw .missingLimit
    match ← d.setLimit value with
    | .inl d => d.readAll rest
    | .inr request => .ok (.inr request)
  | argument :: rest => do
    match ← d.readArgument argument with
    | .inl d => d.readAll rest
    | .inr request => .ok (.inr request)

end Draft

/-- The request that a list of arguments makes. -/
def Request.ofArguments (arguments : List String) : Except UsageError Request := do
  match ← ({} : Draft).readAll arguments with
  | .inr request => .ok request
  | .inl d =>
    match d.contents with
    | some contents =>
      .ok (.evaluate ⟨contents, d.fromFile, d.verbose, d.limit.getD defaultLimit⟩)
    | none => .error .missingContents

end Reckoner
