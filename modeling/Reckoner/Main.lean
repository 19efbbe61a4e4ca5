import Reckoner.CommandLine.Response

/-! # The program -/

namespace Reckoner

/-- The bytes of a file, if it can be read. -/
def readBytes? (path : String) : IO (Option ByteArray) := do
  try
    return some (← IO.FS.readBinFile path)
  catch _ =>
    return none

/-- Reads the file that a request names, if it names one, and answers. -/
def serve (request : Request) : IO Response := do
  let filter ← IO.getEnv "RUST_LOG"
  let file ←
    match request with
    | .evaluate command => if command.fromFile then readBytes? command.contents else pure none
    | _ => pure none
  return request.respond (fun _ => file) filter

end Reckoner

open Reckoner in
def main (arguments : List String) : IO UInt32 := do
  match Request.ofArguments arguments with
  | .error e =>
    IO.eprint ("error: " ++ e.message ++ "\n\n" ++ usage)
    return 2
  | .ok request =>
    let response ← serve request
    response.log.forM IO.eprintln
    IO.print response.stdout
    IO.eprint response.stderr
    return response.code
