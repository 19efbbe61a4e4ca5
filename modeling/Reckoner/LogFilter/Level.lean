import Reckoner.Decimal.Natural

/-! # Log levels -/

namespace Reckoner

inductive LogLevel
  | off | error | warn | info | debug | trace
deriving DecidableEq, Repr

namespace LogLevel

def all : List LogLevel := [off, error, warn, info, debug, trace]

def name : LogLevel → List Char
  | off => "off".toList
  | error => "error".toList
  | warn => "warn".toList
  | info => "info".toList
  | debug => "debug".toList
  | trace => "trace".toList

/-- How much a filter of this level lets through. -/
def verbosity : LogLevel → Nat
  | off => 0
  | error => 1
  | warn => 2
  | info => 3
  | debug => 4
  | trace => 5

/-- Reads a level by its verbosity, or by its name in letters of either case. -/
def read? (text : List Char) : Option LogLevel :=
  match readNatural? text with
  | some n => all.find? (·.verbosity = n)
  | none => all.find? (·.name = text.map Char.toLower)

end LogLevel

end Reckoner
