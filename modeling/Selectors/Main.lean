import Selectors.CommandLine

/-!
# The program

Reads the files that the arguments name, runs the command, and writes what it gives.
-/

namespace Selectors

def readText (path : String) : IO (Option String) := do
  try
    return String.fromUTF8? (← IO.FS.readBinFile path)
  catch _ =>
    return none

def readTexts (paths : List String) : IO Files := do
  let texts ← paths.mapM fun path => return (path, ← readText path)
  return fun path => (texts.lookup path).join

end Selectors

open Selectors in
/-- Runs the command of the arguments; a usage error has the exit code 2. -/
def main (args : List String) : IO UInt32 := do
  match CommandLine.read? args with
  | none =>
    IO.eprintln "usage: match|check [options]"
    return 2
  | some invocation =>
    let result := invocation.run (← readTexts invocation.paths)
    IO.print result.output
    IO.eprint result.errors
    return UInt32.ofNat result.exitCode
