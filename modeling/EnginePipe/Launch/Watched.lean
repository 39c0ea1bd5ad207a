import EnginePipe.Launch.Calls
import EnginePipe.Launch.Launchers

/-!
# Watched hosts

A host on which is written down what a runtime asked it for: the programs it wanted to have located, and the
commands it wanted to have started.  What others ask for is not written down.

To say which commands were started, starting is cut in two: a **starter** is given all words of a command, and
`Starter.spawn` says which words these are.

* `Locator.watched`, `Starter.watched`: what is written down.
* `Watched.quietly`: what is done without a word.
* `spawn_eq`: the launcher of commands on a host is made of a starter.
-/

namespace EnginePipe.Launch

open Channel (EngineProcess)

variable {ω π α : Type}

/-! ### Starters -/

/-- Starts an engine by the words of a command; may answer differently each time. -/
abbrev Starter (ω π : Type) : Type := Descriptor → List String → ω → Except Error (EngineProcess π) × ω

/-- Starts a command, with the bootstrap program as its last argument. -/
def Starter.spawn (starter : Starter ω π) (c : Command) : Launcher ω π := fun d =>
  starter d (c.words d.bootstrap)

/-- Starts a program on a host.  An error shows the command without the bootstrap program. -/
def Starter.host : Starter Host Station := fun d words host =>
  let failed (reason : String) : Error := .spawnFailed d.name (" ".intercalate words.dropLast ++ ": " ++ reason)
  if words.all Host.isPassable then
    match executeProgram host (words.headD "") words.tail with
    | .error e => (.error (failed e.message), host)
    | .ok .shell => (.ok (processOn d (.rules .mute)), host)
    | .ok (.engine path arguments rules) => (.ok (processOn d (.rules rules)), leaveArguments host path arguments)
  else (.error (failed unpassableCommand), host)

theorem spawn_eq (c : Command) : spawn c = Starter.host.spawn c := by
  have hdisplay : ∀ bootstrap, " ".intercalate (c.words bootstrap).dropLast = c.display := by
    intro bootstrap
    rw [Command.words, Command.argumentsFor, ← List.cons_append, List.dropLast_concat, Command.display]
  funext d host
  simp only [Starter.spawn, Starter.host, hdisplay]
  rfl

/-! ### Writing down -/

/-- Something that a host was asked for, and what came of it. -/
inductive Inquiry where
  /-- A program was to be located. -/
  | sought (program : String) (path : Option String)
  /-- A command was to be started. -/
  | launched (words : List String) (answer : Answer)

/-- A host, and what it was asked for so far. -/
structure Watched (ω : Type) where
  host : ω
  inquiries : List Inquiry := []

/-- Does something on the host and writes nothing down. -/
def Watched.quietly (f : ω → α × ω) (h : Watched ω) : α × Watched ω := ((f h.host).1, ⟨(f h.host).2, h.inquiries⟩)

/-- A locator that writes down what it is asked. -/
def Locator.watched (locator : Locator ω) : Locator (Watched ω) := fun program h =>
  let (path, host) := locator program h.host
  (path, ⟨host, h.inquiries ++ [.sought program path]⟩)

/-- A starter that writes down what it is asked. -/
def Starter.watched (starter : Starter ω π) : Starter (Watched ω) π := fun d words h =>
  let (result, host) := starter d words h.host
  (result, ⟨host, h.inquiries ++ [.launched words (result.map fun _ => ())]⟩)

/-- A world on whose host something was written down. -/
def World.watched (w : World ω π) (inquiries : List Inquiry) : World (Watched ω) π where
  host := ⟨w.host, inquiries⟩
  pool := w.pool
  nextContext := w.nextContext

/-- A world without what was written down on its host. -/
def World.unwatched (w : World (Watched ω) π) : World ω π where
  host := w.host.host
  pool := w.pool
  nextContext := w.nextContext

end EnginePipe.Launch
