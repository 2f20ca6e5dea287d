/-
The program: reads the file that a command names, runs the command, and prints what it left behind.

The log goes to the standard error. The variable `MARKUP_LOG` holds its filter, or else `RUST_LOG`; without either
there is no log.
-/
import TaggedText.CommandLine.Run
import TaggedText.LogFilter

open TaggedText TaggedText.CommandLine

/-- the system's code for reading from a directory -/
def readsDirectory : UInt32 :=
  21

def readFileState (path : Text) : IO FileState := do
  try
    return .ofBytes (← IO.FS.readBinFile (String.ofList path))
  catch
    | .noFileOrDirectory .. => return .missing
    | .inappropriateType _ code _ => return if code = readsDirectory then .directory else .missing
    | error => return .unreadable (toString error)

def printLog (filter : Option LogFilter) (events : List Event) : IO Unit := do
  if let some filter := filter then
    for line in filter.lines events do
      IO.eprintln line

def main (arguments : List String) : IO UInt32 := do
  let markupLog ← IO.getEnv "MARKUP_LOG"
  let rustLog ← IO.getEnv "RUST_LOG"
  let filter := LogFilter.ofSettings? (markupLog.map String.toList) (rustLog.map String.toList)
  let arguments := arguments.map String.toList
  let file ←
    match (Command.ofArguments arguments).toOption.bind Command.path? with
    | some path => readFileState path
    | none => pure .missing
  let outcome := Outcome.ofArguments (fun _ => file) arguments
  printLog filter outcome.events
  IO.print (String.ofList outcome.stdout)
  IO.eprint (String.ofList outcome.stderr)
  return outcome.exit.toUInt32
