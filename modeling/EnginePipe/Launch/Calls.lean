import EnginePipe.Launch.Manager

/-!
# Calls of a manager

What is asked of a manager, one call after the other, and what happens to the processes meanwhile.  A
**recording** launcher writes down what it answers, so that one sees when it was called and what came of it.

* `Call.run`, `Call.runAll`: what calls come to.
* `Call.needsProcess`: whether a call has to have a process that is not there yet.
* `Launcher.recording`: a launcher that keeps its answers.
-/

namespace EnginePipe.Launch

open Channel (Peer EngineProcess)

/-- Something that is asked of a manager, or that happens meanwhile. -/
inductive Call (π : Type) where
  | start
  | attach
  | reset
  /-- Exchanges may be going on. -/
  | shutdown (isBusy : ProcessId → Bool)
  /-- A process is used by whoever holds it, or its engine exits. -/
  | stir (id : ProcessId) (change : EngineProcess π → EngineProcess π)

namespace Call

variable {ω π : Type}

/-- Whether a call asks for a process. -/
def isRequest : Call π → Bool
  | start => true
  | attach => true
  | _ => false

variable [Peer π]

/-- Whether a call asks for a process and there is none for it. -/
def needsProcess (call : Call π) (m : Manager) (w : World ω π) : Bool :=
  match call with
  | start => !m.descriptor.isShared || (m.current? w).isNone
  | attach => (m.current? w).isNone
  | _ => false

/-- Makes a call; it gives a process if it asks for one. -/
def run (launcher : Launcher ω π) : Call π → Attempt (Manager × World ω π) (Option Handle)
  | start => do return some (← Manager.start launcher)
  | attach => do return some (.shared (← Manager.attach launcher))
  | reset => fun (m, w) => (.ok none, m, m.reset w)
  | shutdown isBusy => fun (m, w) => (.ok none, m.shutdown isBusy w)
  | stir id change => fun (m, w) => (.ok none, m, { w with pool := w.pool.update id change })

/-- What calls leave. -/
def runAll (launcher : Launcher ω π) (calls : List (Call π)) (s : Manager × World ω π) :
    Manager × World ω π :=
  calls.foldl (fun s call => (call.run launcher s).2) s

end Call

/-! ### Recording -/

/-- What a launcher answered, but for the process. -/
abbrev Answer : Type := Except Error Unit

/-- The reason, if the engine could not be started. -/
def Answer.reason? : Answer → Option String
  | .error (.spawnFailed _ reason) => some reason
  | _ => none

/-- A host, and what was answered on it so far. -/
structure Recorded (ω : Type) where
  host : ω
  answers : List Answer := []

variable {ω π : Type}

/-- A launcher that writes down its answers. -/
def Launcher.recording (launcher : Launcher ω π) : Launcher (Recorded ω) π := fun d h =>
  let (result, host) := launcher d h.host
  (result, ⟨host, h.answers ++ [result.map fun _ => ()]⟩)

/-- A world with a record on its host. -/
def World.recorded (w : World ω π) (answers : List Answer) : World (Recorded ω) π :=
  { host := ⟨w.host, answers⟩, pool := w.pool, nextContext := w.nextContext }

end EnginePipe.Launch
