import Backtester.Command.Execution

/-!
# The program

`main` reads the command line, performs the command on the files and the console of the process, and
ends with its exit code; a command line that is no command ends with the exit code 2.  A run that
ends in an overflow ends the process at once, with a code of its own.
-/

namespace Backtester

/-- The problem behind an error that a place is of the wrong type.  The number of the error may come
with the opposite sign. -/
def FileProblem.ofTypeCode (code : UInt32) (error : IO.Error) : FileProblem :=
  let number := min code (0 - code)
  if number = 20 then .notFolder else if number = 21 then .folder else .other (toString error)

/-- The problem behind an error of a file action. -/
def FileProblem.ofError (error : IO.Error) : FileProblem :=
  match error with
  | .noFileOrDirectory .. => .missing
  | .inappropriateType _ code _ => ofTypeCode code error
  | .permissionDenied .. => .denied
  | _ => .other (toString error)

/-- Performs a file action and gives its problem as a value. -/
def fileAction {β : Type} (action : IO β) : IO (Except FileProblem β) := do
  try
    let value ← action
    return .ok value
  catch error =>
    return .error (FileProblem.ofError error)

/-- Reads the bytes of a file and the text they are. -/
def readFileText (path : String) : IO (Except FileProblem String) := do
  match ← fileAction (IO.FS.readBinFile path) with
  | .error problem => return .error problem
  | .ok bytes =>
      match String.fromUTF8? bytes with
      | some text => return .ok text
      | none => return .error .notText

instance : Host IO where
  readText := fun path => readFileText path
  createFolder := fun path => fileAction (IO.FS.createDirAll path)
  writeText := fun path text => fileAction (IO.FS.writeFile path text)
  putOut := fun text => IO.print text
  showLine := fun line => IO.eprintln line

/-- The exit code of a process that ends in an overflow. -/
def overflowExitCode : UInt32 := 101

/-- How the program is used. -/
def usage : String :=
  "Replay trading rules over historical candles\n\n" ++
    "backtest --config <FILE> [--strategy <FILE>] [--candles <FILE>] [--output <FILE>]\n" ++
    "validate --strategy <FILE> [--config <FILE>]\n" ++
    "indicator --candles <FILE> --name <NAME> [--period <PERIOD>]"

end Backtester

/-- The program. -/
def main (arguments : List String) : IO UInt32 := do
  match Backtester.Command.ofArguments? arguments with
  | some command =>
      match ← command.execute with
      | .ok code => return code.toUInt32
      | .error overflow =>
          IO.eprintln overflow.message
          return Backtester.overflowExitCode
  | none =>
      IO.eprintln Backtester.usage
      return 2
