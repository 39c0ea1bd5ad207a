import EnginePipe.Descriptor
import EnginePipe.Launch.World
import EnginePipe.Text.Quoted

/-!
# Managers

A manager starts the processes of one runtime.  Where one process serves all contexts it stands in the
manager's **slot**, and a start attaches to it while it is alive; otherwise each start launches a
process that belongs to the caller.

A launcher that says that the engine could not be started is not called again: the reason is kept, and
every later launch fails with it.

Resetting and shutting down take two steps, first reading or taking the slot, then ending the process
that stood in it; something else may happen in between, so both steps are definitions of their own.

* `attach_of_alive`: a living process in the slot is handed out.
* `launch_of_failure`: after a failed start the launcher is left alone.
-/

namespace EnginePipe.Launch

open Channel (Peer EngineProcess)

/-- Starts an engine; may answer differently each time. -/
abbrev Launcher (ω π : Type) : Type := Descriptor → ω → Except Error (EngineProcess π) × ω

/-- A process given to a context. -/
inductive Handle where
  /-- It also serves others. -/
  | shared (id : ProcessId)
  /-- It serves this context alone and ends with it. -/
  | owned (id : ProcessId)
deriving DecidableEq, Repr

/-- The process of a handle. -/
def Handle.process : Handle → ProcessId
  | shared id => id
  | owned id => id

/-- What starts the processes of one runtime. -/
structure Manager where
  descriptor : Descriptor
  /-- The process that serves all contexts. -/
  slot : Option ProcessId := none
  /-- Why the engine could not be started. -/
  failure : Option String := none
  /-- How often the launcher was called. -/
  launches : Nat := 0
  /-- The processes that were started. -/
  started : List ProcessId := []
deriving Repr

namespace Manager

variable {ω π : Type}

/-- A manager that has not started anything. -/
def ofDescriptor (descriptor : Descriptor) : Manager := { descriptor }

/-- Keeps the reason of an error if it says that the engine could not be started. -/
def noteFailure (m : Manager) : Error → Manager
  | .spawnFailed _ reason => { m with failure := some reason }
  | _ => m

/-- Starts a process. -/
def launch (launcher : Launcher ω π) : Attempt (Manager × World ω π) ProcessId := fun (m, w) =>
  match m.failure with
  | some reason => (.error (.spawnFailed m.descriptor.name reason), m, w)
  | none =>
    let m := { m with launches := m.launches + 1 }
    match launcher m.descriptor w.host with
    | (.ok p, host) =>
      let (id, pool) := w.pool.start p
      (.ok id, { m with started := m.started ++ [id] }, { w with host, pool })
    | (.error e, host) => (.error e, m.noteFailure e, { w with host })

/-- The process in the slot, if it is alive. -/
def current? [Peer π] (m : Manager) (w : World ω π) : Option ProcessId := m.slot.filter w.pool.isAlive

/-- Starts a process and puts it into the slot. -/
def replace (launcher : Launcher ω π) : Attempt (Manager × World ω π) ProcessId := do
  let id ← launch launcher
  Attempt.modify fun (m, w) => ({ m with slot := some id }, w)
  pure id

/-- The living process in the slot; starts one if there is none. -/
def attach [Peer π] (launcher : Launcher ω π) : Attempt (Manager × World ω π) ProcessId := fun (m, w) =>
  match m.current? w with
  | some id => (.ok id, m, w)
  | none => replace launcher (m, w)

/-- A process for a new context. -/
def start [Peer π] (launcher : Launcher ω π) : Attempt (Manager × World ω π) Handle := do
  let (m, _) ← Attempt.get
  if m.descriptor.isShared then
    return .shared (← attach launcher)
  else
    return .owned (← launch launcher)

/-! ### Ending the process in the slot -/

/-- Ends the process that a reset has read from the slot. -/
def finishReset [Peer π] (target : Option ProcessId) (w : World ω π) : World ω π :=
  match target with
  | none => w
  | some id => { w with pool := w.pool.update id EngineProcess.sever }

/-- Ends the process in the slot, which stays there. -/
def reset [Peer π] (m : Manager) (w : World ω π) : World ω π := finishReset m.slot w

/-- Takes the process out of the slot. -/
def takeSlot (m : Manager) : Option ProcessId × Manager := (m.slot, { m with slot := none })

/-- Ends the process that a shutdown has taken out of the slot: closes it, or severs it if an
exchange is going on. -/
def finishShutdown [Peer π] (target : Option ProcessId) (isBusy : ProcessId → Bool) (w : World ω π) :
    World ω π :=
  match target with
  | none => w
  | some id =>
    { w with pool := w.pool.update id (if isBusy id then EngineProcess.sever else EngineProcess.close) }

/-- Takes the process out of the slot and ends it. -/
def shutdown [Peer π] (m : Manager) (isBusy : ProcessId → Bool) (w : World ω π) : Manager × World ω π :=
  let (target, m) := m.takeSlot
  (m, finishShutdown target isBusy w)

theorem attach_of_alive [Peer π] {m : Manager} {w : World ω π} {id : ProcessId} (hs : m.slot = some id)
    (ha : w.pool.isAlive id) (launcher : Launcher ω π) :
    attach launcher (m, w) = (.ok id, m, w) := by
  have h : m.current? w = some id := by simp [current?, hs, Option.filter, ha]
  simp [attach, h]

theorem launch_of_failure {m : Manager} {reason : String} (h : m.failure = some reason)
    (w : World ω π) (launcher : Launcher ω π) :
    launch launcher (m, w) = (.error (.spawnFailed m.descriptor.name reason), m, w) := by
  simp [launch, h]

/-- A manager as it is shown to developers. -/
def describe (m : Manager) : String :=
  "ProcessManager \x7b runtime: " ++ Text.quoted m.descriptor.name ++ ", failure: " ++
    Text.quotedOption m.failure ++ " \x7d"

end Manager

end EnginePipe.Launch
