import EnginePipe.Engine.Program
import EnginePipe.Launch.Command
import EnginePipe.Launch.Execution
import EnginePipe.Launch.Manager

/-!
# Launchers

How engines are started on a host: as the program of a command, or as a toy engine inside the host.

* `spawn_of_engine`: an engine that can be executed is started and leaves its arguments.
* `spawn_of_unpassable`: a command with a word that the system cannot be given is not started.
-/

namespace EnginePipe.Launch

open Channel (EngineProcess)
open Engine (Pipe Program)

/-- The end that host and program share. -/
abbrev Station : Type := Pipe Program

/-- A process on a program that was just started. -/
def processOn (d : Descriptor) (program : Program) : EngineProcess Station :=
  .ofPeer d.name (.start program) d.framing

/-- Starts a toy engine. -/
def toyLauncher {ω : Type} : Launcher ω Station := fun d w => (.ok (processOn d (.toy .fresh)), w)

/-- Starts nothing. -/
def refusingLauncher {ω : Type} : Launcher ω Station := fun d w =>
  (.error (.spawnFailed d.name "fake launcher refuses to start"), w)

/-! ### Commands -/

/-- The host after an engine has left its arguments beside itself, one on each line. -/
def leaveArguments (host : Host) (path : String) (arguments : List String) : Host :=
  let text := String.join (arguments.map (· ++ "\n"))
  { host with
    files := host.files.write host.workingDir
      (Host.join (Host.directoryOf path) Engine.argumentsFile) (.bytes (Text.bytes text)) }

/-- The error of a command that was not started. -/
def spawnError (d : Descriptor) (c : Command) (reason : String) : Error :=
  .spawnFailed d.name (c.display ++ ": " ++ reason)

/-- What is said about a command with a word that the system cannot be given. -/
def unpassableCommand : String := "nul byte found in provided data"

/-- Starts the program of a command, with the bootstrap program as its last argument. -/
def spawn (c : Command) : Launcher Host Station := fun d host =>
  if (c.words d.bootstrap).all Host.isPassable then
    match executeProgram host c.program (c.argumentsFor d.bootstrap) with
    | .error e => (.error (spawnError d c e.message), host)
    | .ok .shell => (.ok (processOn d (.rules .mute)), host)
    | .ok (.engine path arguments rules) =>
      (.ok (processOn d (.rules rules)), leaveArguments host path arguments)
  else (.error (spawnError d c unpassableCommand), host)

theorem spawn_of_engine {host : Host} {c : Command} {d : Descriptor} {path : String}
    {arguments : List String} {rules : Engine.Rulebook}
    (hp : (c.words d.bootstrap).all Host.isPassable)
    (h : executeProgram host c.program (c.argumentsFor d.bootstrap) =
      .ok (.engine path arguments rules)) :
    spawn c d host = (.ok (processOn d (.rules rules)), leaveArguments host path arguments) := by
  simp only [spawn, hp, h, if_true]

theorem spawn_of_unpassable {c : Command} {d : Descriptor}
    (hp : (c.words d.bootstrap).all Host.isPassable = false) (host : Host) :
    spawn c d host = (.error (spawnError d c unpassableCommand), host) := by
  simp [spawn, hp]

end EnginePipe.Launch
