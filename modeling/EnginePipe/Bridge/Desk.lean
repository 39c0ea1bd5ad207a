import EnginePipe.Bridge.DefaultSlot
import EnginePipe.Bridge.Runtime

/-!
# Desks

All that a program holds which evaluates source texts: the world, the runtimes that were made, one
registry of them, the runtime in use, and the default runtime.

A runtime is known by its place among those that were made.  One to which neither registry nor the
other two places refer any more cannot be reached again, so the engine that it keeps running is ended
(`sweep`).
-/

namespace EnginePipe.Bridge

open Channel (Heard Peer)
open Launch (Manager World)

/-- The place of a runtime among those that were made. -/
abbrev RuntimeId : Type := Nat

/-- A runtime that is going to be registered. -/
structure Registration (ω π : Type) where
  name : String
  runtime : Runtime ω π
  isAuto : Bool := true

/-- All that a program holds which evaluates source texts. -/
structure Desk (ω π : Type) where
  world : World ω π
  runtimes : List (Runtime ω π) := []
  registry : Registry RuntimeId := .empty
  /-- The runtime in use. -/
  current : Option RuntimeId := none
  /-- The runtime that is used where none is named. -/
  default : Option RuntimeId := none

namespace Desk

variable {ω π α : Type}

/-- A runtime. -/
def get? (d : Desk ω π) (id : RuntimeId) : Option (Runtime ω π) := d.runtimes[id]?

/-- The name shown to people of a runtime. -/
def nameOf (d : Desk ω π) (id : RuntimeId) : String := ((d.get? id).map Runtime.name).getD ""

/-- What starts the processes of a runtime, if its engine was found. -/
def manager? (d : Desk ω π) (id : RuntimeId) : Option Manager :=
  match d.get? id with
  | some (.external x) => x.probe.manager?
  | _ => none

/-- What the engines of a runtime were sent, in order of arrival. -/
def heard (d : Desk ω π) (id : RuntimeId) : List Heard :=
  d.world.pool.heardBy (((d.manager? id).map Manager.started).getD [])

/-- A step of a runtime on the world. -/
def step (d : Desk ω π) (id : RuntimeId) (f : Runtime ω π → World ω π → α × Runtime ω π × World ω π) :
    Option α × Desk ω π :=
  match d.get? id with
  | none => (none, d)
  | some r =>
    let (answer, r, world) := f r d.world
    (some answer, { d with world, runtimes := d.runtimes.set id r })

/-- An attempt of a runtime on the world. -/
def act (id : RuntimeId) (x : Attempt (Runtime ω π × World ω π) α) : Attempt (Desk ω π) α := fun d =>
  match d.step id (fun r w => x (r, w)) with
  | (some result, d) => (result, d)
  | (none, d) => (.error (.runtimeUnavailable ""), d)

/-- Whether a runtime can be used. -/
def isAvailable (id : RuntimeId) (d : Desk ω π) : Bool × Desk ω π :=
  let (answer, d) := d.step id Runtime.isAvailable
  (answer.getD false, d)

instance : Candidates RuntimeId (Desk ω π) where
  name := nameOf
  isDeprecated d id := (d.get? id).any Runtime.isDeprecated
  isAvailable := isAvailable

/-! ### Ending engines -/

/-- Ends the engine that a runtime keeps running. -/
def shutdown [Peer π] (d : Desk ω π) (id : RuntimeId) : Desk ω π :=
  (d.step id fun r w => ((), r.shutdown w)).2

/-- Ends the engine that a runtime keeps running, so that the next context gets a new one. -/
def reset [Peer π] (d : Desk ω π) (id : RuntimeId) : Desk ω π :=
  (d.step id fun r w => ((), r, r.reset w)).2

/-- Ends the engines of all runtimes in a registry. -/
def shutdownAll [Peer π] (registry : Registry RuntimeId) (d : Desk ω π) : Desk ω π :=
  registry.runtimes.foldl shutdown d

/-- Whether a runtime can still be reached. -/
def isReferenced (d : Desk ω π) (id : RuntimeId) : Bool :=
  d.registry.runtimes.contains id || d.current = some id || d.default = some id

/-- Ends the engines of all runtimes that cannot be reached any more. -/
def sweep [Peer π] (d : Desk ω π) : Desk ω π :=
  ((List.range d.runtimes.length).filter fun id => !d.isReferenced id).foldl shutdown d

/-! ### Making runtimes -/

/-- Makes a runtime. -/
def make (d : Desk ω π) (r : Runtime ω π) : RuntimeId × Desk ω π :=
  (d.runtimes.length, { d with runtimes := d.runtimes ++ [r] })

/-- Makes a runtime and adds it to a registry. -/
def enroll (state : Registry RuntimeId × Desk ω π) (r : Registration ω π) :
    Registry RuntimeId × Desk ω π :=
  let (id, d) := state.2.make r.runtime
  (state.1.register ⟨r.name, id, r.isAuto⟩, d)

/-- Makes a registry with new runtimes. -/
def table (registrations : List (Registration ω π)) (d : Desk ω π) :
    Registry RuntimeId × Desk ω π :=
  registrations.foldl enroll (.empty, d)

/-- Makes a runtime and adds it to the desk's registry. -/
def add [Peer π] (r : Registration ω π) (d : Desk ω π) : Desk ω π :=
  let (registry, d) := enroll (d.registry, d) r
  sweep { d with registry }

/-! ### The runtime in use and the default -/

/-- Uses the runtime under a name in the desk's registry, if there is one. -/
def use [Peer π] (name : String) (d : Desk ω π) : Desk ω π :=
  sweep { d with current := d.registry.get? name }

/-- Uses the runtime that a selector chooses. -/
def choose [Peer π] (selector : Selector RuntimeId) (excluded : List String) :
    Attempt (Desk ω π) RuntimeId := do
  let id ← selector.select excluded
  Attempt.modify fun d => sweep { d with current := some id }
  pure id

/-- Makes a runtime the default, if it can be used. -/
def setDefault [Peer π] (id : RuntimeId) : Attempt (Desk ω π) Unit := fun d =>
  let (result, slot, d) := DefaultSlot.assign id (d.default, d)
  (result, sweep { d with default := slot })

/-- The default runtime; detects it if there is none. -/
def getDefault (detect : Attempt (Desk ω π) RuntimeId) : Attempt (Desk ω π) RuntimeId := fun d =>
  let (result, slot, d) := DefaultSlot.get detect (d.default, d)
  (result, { d with default := slot })

end Desk

end EnginePipe.Bridge
