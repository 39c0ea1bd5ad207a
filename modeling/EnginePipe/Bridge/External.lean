import EnginePipe.Context.PipeSession
import EnginePipe.Launch.Command

/-!
# External runtimes

A runtime whose contexts are served by engine processes.  Its commands are resolved at most once, when
it is first asked whether it is available or for a context; what was found then stays.  Asking never
starts a process.

* `probed_probed`: a second probe changes nothing.
* `compile_of_missing`: without an engine no key is taken and nothing is started.
-/

namespace EnginePipe.Bridge

open Channel (Peer EngineProcess)
open Launch (Command Handle Launcher Locator Manager ProcessId World)

/-- What is known about the engine of a runtime. -/
inductive Probe (ω π : Type) where
  /-- Nothing so far. -/
  | pending
  /-- None of its commands was located. -/
  | missing
  /-- How it is started, and what starts it. -/
  | found (launcher : Launcher ω π) (manager : Manager)

/-- The manager, if an engine was found. -/
def Probe.manager? {ω π : Type} : Probe ω π → Option Manager
  | found _ m => some m
  | _ => none

/-- A runtime whose contexts are served by engine processes. -/
structure External (ω π : Type) where
  descriptor : Descriptor
  locator : Locator ω
  /-- How a located command is started. -/
  spawn : Command → Launcher ω π
  probe : Probe ω π := .pending

namespace External

variable {ω π : Type}

/-- A runtime that does not look for commands but starts its engine through a launcher. -/
def ofLauncher (descriptor : Descriptor) (launcher : Launcher ω π) : External ω π where
  descriptor
  locator _ w := (none, w)
  spawn _ := launcher
  probe := .found launcher (.ofDescriptor descriptor)

/-- Resolves the commands of the runtime, unless that was done before. -/
def probed (x : External ω π) (w : World ω π) : External ω π × World ω π :=
  match x.probe with
  | .pending =>
    let (command, host) := Launch.resolve x.locator x.descriptor.commands w.host
    let probe := match command with
      | none => .missing
      | some c => .found (x.spawn c) (.ofDescriptor x.descriptor)
    ({ x with probe }, { w with host })
  | _ => (x, w)

/-- Whether an engine was found and no attempt to start it has failed. -/
def isUsable (x : External ω π) : Bool := x.probe.manager?.any (·.failure.isNone)

/-- Whether the runtime can be used; probes it first. -/
def isAvailable (x : External ω π) (w : World ω π) : Bool × External ω π × World ω π :=
  let (x, w) := x.probed w
  (x.isUsable, x, w)

/-- A process for a new context. -/
def start [Peer π] : Attempt (External ω π × World ω π) Handle := fun (x, w) =>
  match x.probe with
  | .found launcher manager =>
    let (result, manager, w) := Manager.start launcher (manager, w)
    (result, { x with probe := .found launcher manager }, w)
  | _ => (.error (.runtimeUnavailable x.descriptor.name), x, w)

/-- Opens a context: takes a key for it, gets it a process, and evaluates a preamble in it. -/
def openContext [Peer π] (preamble : String) :
    Attempt (External ω π × World ω π) (Context PipeSession) := fun (x, w) =>
  let (id, w) := w.takeId
  match start (x, w) with
  | (.error e, state) => (.error e, state)
  | (.ok handle, x, w) =>
    let session : PipeSession := ⟨id, x.descriptor.syntaxMarker, handle⟩
    let (result, w) := Context.start x.descriptor.name session preamble w
    (result, x, w)

/-- Opens a context, if there is an engine for it; probes first. -/
def compile [Peer π] (preamble : String) :
    Attempt (External ω π × World ω π) (Context PipeSession) := fun (x, w) =>
  let (x, w) := x.probed w
  match x.probe with
  | .found _ _ => openContext preamble (x, w)
  | _ => (.error (.runtimeUnavailable x.descriptor.name), x, w)

/-- Ends the process that serves all contexts, if the runtime has started one. -/
def shutdown [Peer π] (x : External ω π) (w : World ω π) : External ω π × World ω π :=
  match x.probe with
  | .found launcher manager =>
    let (manager, w) := manager.shutdown (fun _ => false) w
    ({ x with probe := .found launcher manager }, w)
  | _ => (x, w)

/-- Ends the process that serves all contexts, so that the next context gets a new one. -/
def reset [Peer π] (x : External ω π) (w : World ω π) : World ω π :=
  match x.probe with
  | .found _ manager => manager.reset w
  | _ => w

theorem probed_of_not_pending {x : External ω π} (h : x.probe ≠ .pending) (w : World ω π) :
    x.probed w = (x, w) := by
  rw [probed]
  split
  · next hp => exact absurd hp h
  · rfl

theorem probe_probed_ne_pending (x : External ω π) (w : World ω π) :
    (x.probed w).1.probe ≠ .pending := by
  rw [probed]
  split
  · dsimp only
    split <;> simp
  · next h => exact h

theorem probed_probed (x : External ω π) (w w' : World ω π) :
    (x.probed w).1.probed w' = ((x.probed w).1, w') :=
  probed_of_not_pending (probe_probed_ne_pending x w) w'

theorem compile_of_missing [Peer π] {x : External ω π} (h : x.probe = .missing) (preamble : String)
    (w : World ω π) :
    compile preamble (x, w) = (.error (.runtimeUnavailable x.descriptor.name), x, w) := by
  have hp : x.probed w = (x, w) := probed_of_not_pending (by simp [h]) w
  simp [compile, hp, h]

end External

end EnginePipe.Bridge
