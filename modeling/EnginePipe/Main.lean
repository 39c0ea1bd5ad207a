import EnginePipe.Cli.Run

/-!
# The program

The outer layer of the command line: reads arguments, environment, standard input and the preamble file,
and prints the report.  It starts no engines of its own, so on its desk only those runtimes can be used
that need none.
-/

namespace EnginePipe.Program

open Bridge (Desk)
open Launch (Station)

/-- The directory of the programs that engines run, if none is asked for. -/
def fallbackSupport : String := "/usr/local/share/enginepipe"

/-- The environment settings that matter. -/
def settings : List String :=
  [Bridge.Selector.environmentVariable, Bridge.supportVariable, "PATH", "HOME"]

/-- The path of the preamble of a command. -/
def preamblePath? : Cli.Command → Option String
  | .eval arguments => arguments.preamble
  | .exec arguments => arguments.preamble
  | .call arguments => arguments.preamble
  | .runtimes => none

/-- Whether a command reads standard input. -/
def readsStdin : Cli.Command → Bool
  | .eval arguments => (arguments.source.filter (· ≠ Cli.stdinMark)).isNone
  | .exec arguments => (arguments.source.filter (· ≠ Cli.stdinMark)).isNone
  | _ => false

/-- A host with the file at a path, if it can be read. -/
def hostWith (environment : List (String × String)) (path : Option String) : IO Host := do
  let empty : Host.Files Host.Content := .empty
  let files ← match path with
    | none => pure empty
    | some path =>
      try
        let data ← IO.FS.readBinFile path
        let directories := (Host.Files.namesFrom "/" path).dropLast
        pure ((empty.makeDirectories [] directories).write "/" path (.bytes data.toList))
      catch _ => pure empty
  pure { files, workingDir := "/", environment }

/-- What is said about a command line that is not run. -/
def usage : Cli.Refusal → String
  | .help => "usage: enginepipe [options] (eval | exec | call | runtimes) [arguments]"
  | .version => "enginepipe 1.0"
  | .nothingGiven => "no command is given"
  | .missingCommand => "a command is missing behind the options"
  | .unknownCommand => "the command is not known"
  | .unknownArgument => "an argument is not known"
  | .invalidValue => "an option has no value or one that it does not accept"
  | .needlessValue => "an option has a value but takes none"
  | .repeatedOption => "an option is given twice"
  | .missingWord => "a required argument is missing"

/-- Runs an invocation and prints the report. -/
def runInvocation (invocation : Cli.Invocation) : IO UInt32 := do
  let found ← settings.filterMapM fun name => do
    return (← IO.getEnv name).map ((name, ·))
  let host ← hostWith found (preamblePath? invocation.command)
  let stdin ← if readsStdin invocation.command then
      (← IO.getStdin).readBinToEnd
    else pure .empty
  let desk : Desk Host Station := { world := { host } }
  let (report, _) := Cli.run fallbackSupport stdin.toList invocation desk
  IO.eprint report.stderr
  IO.print report.stdout
  return report.exitCode.toUInt32

end EnginePipe.Program

/-- Reads the command line and runs it. -/
def main (arguments : List String) : IO UInt32 := do
  match EnginePipe.Cli.Invocation.ofArguments arguments with
  | .error refusal =>
    if refusal.exitCode = 0 then IO.println (EnginePipe.Program.usage refusal)
    else IO.eprintln ("error: " ++ EnginePipe.Program.usage refusal)
    return refusal.exitCode.toUInt32
  | .ok invocation => EnginePipe.Program.runInvocation invocation
