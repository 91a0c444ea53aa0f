import VoucherGateway.CommandLine.Outcome

/-!
# Main — the operator's program

Reads the files that a request needs, works out the outcome, and carries it out.
-/

open VoucherGateway VoucherGateway.CommandLine

/-- The content of a file, if it can be read. -/
def readContent (path : String) : IO (Option Bytes) := do
  try
    let content ← IO.FS.readBinFile path
    return some content.toList
  catch _ => return none

/-- Writes a file; the answer tells whether that worked. -/
def writeContent (path text : String) : IO Bool := do
  try
    IO.FS.writeFile path text
    return true
  catch _ => return false

/-- Runs the program. -/
def main (arguments : List String) : IO UInt32 := do
  let request := Request.ofArguments (← IO.getEnv "MICROPAY_SIGNING_KEY") arguments
  let files ← request.inputs.mapM fun path => return (path, ← readContent path)
  let fresh ← IO.getRandomBytes keyLength.toUSize
  let outcome := request.outcome (fun path => (files.lookup path).join) fresh.toList
  IO.eprint outcome.complaint
  match outcome.write with
  | none =>
    IO.print outcome.output
    return outcome.status
  | some (path, text) =>
    if ← writeContent path text then return outcome.status
    else
      IO.eprintln s!"cannot write {path}"
      return 1
