import Reckoner.CommandLine.Request
import Reckoner.Decimal.Positional
import Reckoner.LogFilter.Basic

/-! # Responses -/

namespace Reckoner

/-- What a run of the program leaves behind. -/
structure Response where
  code : UInt32
  stdout : String
  stderr : String
  /-- The lines of the log, without the times. -/
  log : List String
deriving DecidableEq, Repr

/-- The events of an evaluation as a log filter sees them. -/
def Event.source : LogSource where
  target := "textcalc::interpreter::evaluator::core".toList
  fields := ["message", "kind", "capture", "fragment", "depth"].map String.toList
  level := .debug

namespace Command

/-- Is the log wanted? A filter that can be read decides, else the command's own wish. -/
def logs (c : Command) (filter : Option String) : Bool :=
  match filter.bind (LogFilter.read? ·.toList) with
  | some filter => filter.enables Event.source
  | none => c.verbose

/-- The text to evaluate: the contents, or the file if its bytes are there and are UTF-8. -/
def text? (c : Command) (file : Option ByteArray) : Option String :=
  if c.fromFile then file.bind String.fromUTF8? else some c.contents

/-- Answers with the value or the error of a text. -/
def answer (c : Command) (filter : Option String) (text : String) : Response :=
  let run := trace text.toList c.limit
  let log := if c.logs filter then run.events.map fun e => .ofList e.line else []
  match run.result with
  | .ok value => ⟨0, toString value ++ "\n", "", log⟩
  | .error e => ⟨1, "", .ofList e.message ++ "\n", log⟩

/-- Carries out the command; `file` holds the bytes of the file of the command's name. -/
def respond (c : Command) (file : Option ByteArray) (filter : Option String) : Response :=
  match c.text? file with
  | some text => c.answer filter text
  | none =>
    ⟨1, "", "Failed to read the input file '" ++ c.contents ++
      "'. Perhaps this file does not exist?\n", []⟩

end Command

/-- How the program is called. -/
def usage : String :=
  "Usage: textcalc [-f|--file] [-v|--verbose] [--max-depth N] [-V|--version] [--] <contents>\n"

/-- Carries out a request; `readFile` tells the bytes of a file, if there is one. -/
def Request.respond (readFile : String → Option ByteArray) (filter : Option String) :
    Request → Response
  | .showVersion => ⟨0, "textcalc 0.1.0\n", "", []⟩
  | .showHelp => ⟨0, usage, "", []⟩
  | .evaluate command => command.respond (readFile command.contents) filter

end Reckoner
