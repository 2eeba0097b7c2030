import Latitude.Program.Basic

/-!
# The command line

Hands the words of the command line, the log filter from the environment and the file
that they name to `Latitude.Program.run`, and prints what it gives.
-/

namespace Latitude

/-- What the system reported, with its number where there is one. -/
def systemReason : IO.Error → String
  | .noFileOrDirectory _ code details
  | .permissionDenied _ code details
  | .inappropriateType _ code details
  | .invalidArgument _ code details
  | .resourceExhausted _ code details
  | .noSuchThing _ code details
  | .otherError code details => details ++ " (os error " ++ toString code ++ ")"
  | e => toString e

def readSource (handle : IO.FS.Handle) : IO Source := do
  try
    return .ofBytes (← handle.readBinToEnd).data.toList
  catch e => return [.fault { kind := .other, reason := systemReason e }]

def openFile (path : String) : IO Opened := do
  try
    return .source (← readSource (← IO.FS.Handle.mk path .read))
  catch e => return .failed (systemReason e)

end Latitude

def main (words : List String) : IO UInt32 := do
  let filterText ← IO.getEnv "RUST_LOG"
  let opened ← match Latitude.Options.ofWords words with
    | .ok { file := some path, .. } => Latitude.openFile path
    | _ => pure Latitude.Directory.notFound
  let exit := Latitude.Program.run words filterText fun _ => opened
  let stdout ← IO.getStdout
  stdout.write exit.stdout.toByteArray
  stdout.flush
  IO.eprint exit.stderr
  return exit.status
