import EnginePipe.Context.Basic
import EnginePipe.Launch.Manager

/-!
# Sessions on processes

The session of a context that an engine process serves.  On a process that serves others too, closing
tells the engine to forget the context, unless the process is dead and so holds nothing for it; a
process of its own ends with the session.

* `close_of_dead`: nothing is sent to a dead process.
-/

namespace EnginePipe

open Channel (Peer EngineProcess)
open Launch (Handle Pool ProcessId World)

/-- The session of a context that an engine process serves. -/
structure PipeSession where
  id : ContextId
  /-- What occurs in the engine's message about source it cannot read. -/
  marker : String
  handle : Handle
deriving DecidableEq, Repr

namespace PipeSession

variable {ω π α : Type} [Peer π]

/-- An attempt on a process of the world. -/
def onProcess (id : ProcessId) (x : Attempt (EngineProcess π) α) : Attempt (World ω π) α :=
  Attempt.within World.pool (fun pool w => { w with pool }) (Pool.act id x)

/-- Sends a source text and reads what it comes to. -/
def evaluate (session : PipeSession) (source : String) : Attempt (World ω π) Json.Value :=
  onProcess session.handle.process
    (EngineProcess.evaluate (.escaped session.id source) session.marker)

/-- Has the engine release what it holds for the context. -/
def close (session : PipeSession) : Attempt (World ω π) Unit := fun w =>
  match session.handle with
  | .shared id =>
    if w.pool.isAlive id then onProcess id (EngineProcess.teardown session.id) w else (.ok (), w)
  | .owned id => (.ok (), { w with pool := w.pool.update id EngineProcess.close })

instance : Session PipeSession (World ω π) where
  id := id
  evaluate := evaluate
  close := close

theorem close_of_dead {session : PipeSession} {id : ProcessId} {w : World ω π}
    (hh : session.handle = .shared id) (hd : w.pool.isAlive id = false) :
    session.close w = (.ok (), w) := by
  simp [close, hh, hd]

end PipeSession

end EnginePipe
