import EnginePipe.Host.Interpreter
import EnginePipe.Launch.Locate

/-!
# Executing programs

What the system does to execute a program.  A path is executed as it is: an engine by itself, a script
by its interpreter, which gets the path of the script as an argument, and which may be a script again.
A program that is named without a slash is looked for on the search path of the host.

* `execute_bytes_of_none`: a file that is no program and names no interpreter is not executed.
* `search_of_execute`: the first path that can be executed is taken.
-/

namespace EnginePipe.Launch

open Host (SystemError)

/-- What is executed in the end. -/
inductive Execution where
  /-- An engine, with its own path and its arguments. -/
  | engine (path : String) (arguments : List String) (rules : Engine.Rulebook)
  /-- The system's shell. What a script tells it to do is not known here. -/
  | shell
deriving Repr

/-- How many programs are loaded one for another. -/
def maxLoads : Nat := 6

/-- How many bytes an argument may have. -/
def maxArgumentSize : Nat := 131071

/-- Loads a program, and its interpreters, at most so many in all.  An engine is a script for the shell,
so it takes two. -/
def load (host : Host) (loads : Nat) (path : String) (arguments : List String)
    (content : Host.Content) : Except SystemError Execution :=
  match loads, content with
  | 0, _ => .error .tooManyLinks
  | _ + 1, .shell => .ok .shell
  | 1, .engine _ => .error .tooManyLinks
  | _ + 2, .engine rules => .ok (.engine path arguments rules)
  | loads + 1, .bytes data =>
    match Host.interpreter? data with
    | none => .error .execFormat
    | some interpreter =>
      match host.files.executable host.workingDir interpreter.path with
      | .error e => .error e
      | .ok content =>
        load host loads interpreter.path (interpreter.argument.toList ++ path :: arguments) content

/-- Executes the file at a path. -/
def execute (host : Host) (arguments : List String) (path : String) : Except SystemError Execution :=
  match host.files.executable host.workingDir path with
  | .error e => .error e
  | .ok content =>
    if arguments.any fun argument => maxArgumentSize < argument.utf8ByteSize then
      .error .argumentTooLong
    else load host maxLoads path arguments content

/-- Whether a search goes on to the next path behind an error. -/
def isPassedOver : SystemError → Bool
  | .notFound => true
  | .notDirectory => true
  | .permissionDenied => true
  | _ => false

/-- Executes the first of some paths at which there is a program.  A path that leads nowhere is passed
over; so is one that may not be executed, but then that is the reason given in the end. -/
def search (host : Host) (arguments : List String) :
    SystemError → List String → Except SystemError Execution
  | reason, [] => .error reason
  | reason, path :: paths =>
    match execute host arguments path with
    | .error e =>
      if isPassedOver e then
        search host arguments (if reason = .permissionDenied then reason else e) paths
      else .error e
    | .ok execution => .ok execution

/-- Executes a program by its path or by its name. -/
def executeProgram (host : Host) (program : String) (arguments : List String) :
    Except SystemError Execution :=
  if program.isEmpty then .error .notFound
  else if program.toList.contains '/' then execute host arguments program
  else
    search host arguments .notFound
      ((((host.setting? "PATH").map searchDirs).getD []).map (Host.join · program))

theorem execute_bytes_of_none {host : Host} {path : String} {data : List UInt8}
    (hx : host.files.executable host.workingDir path = .ok (.bytes data))
    (hi : Host.interpreter? data = none) {arguments : List String}
    (ha : ∀ argument ∈ arguments, argument.utf8ByteSize ≤ maxArgumentSize) :
    execute host arguments path = .error .execFormat := by
  have h : (arguments.any fun argument => decide (maxArgumentSize < argument.utf8ByteSize)) = false := by
    simpa using ha
  simp [execute, hx, h, load, maxLoads, hi]

theorem search_of_execute {host : Host} {arguments : List String} {path : String}
    {execution : Execution} (h : execute host arguments path = .ok execution) (reason : SystemError)
    (paths : List String) : search host arguments reason (path :: paths) = .ok execution := by
  simp [search, h]

end EnginePipe.Launch
