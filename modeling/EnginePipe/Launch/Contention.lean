import EnginePipe.Channel.Usage
import EnginePipe.Launch.Manager

/-!
# Contention

A manager that several threads use at once.  Looking at the slot and changing it is one turn, as it is done
under one lock; a reset and a shutdown end their process in a later turn, and any turns of others may come
between.  A process may change at any time, as an exchange on it takes several turns of its own and as an
engine may exit by itself.

* `Contention.step`, `Contention.run`: turns in any order.
* `Begun`: a reset or a shutdown that has done its first step.
-/

namespace EnginePipe.Launch

open Channel (Peer EngineProcess)

/-- A reset or a shutdown, with the process that it found in the slot. -/
inductive Begun where
  | reset (target : Option ProcessId)
  | shutdown (target : Option ProcessId)
deriving DecidableEq, Repr

/-- The process that a reset or shutdown is to end. -/
def Begun.target : Begun → Option ProcessId
  | .reset target => target
  | .shutdown target => target

/-- How the process is to be ended: a shutdown closes one that is idle. -/
def Begun.ending : Begun → Bool → Channel.Ending
  | .reset _, _ => .sever
  | .shutdown _, isBusy => if isBusy then .sever else .close

/-- What a thread does in one turn. -/
inductive Turn (π : Type) where
  | attach
  | beginReset
  | beginShutdown
  /-- The second step of what was begun as number `k`.  A shutdown finds out whether an exchange is going on. -/
  | finish (k : Nat) (isBusy : Bool)
  /-- An operation on a process by whoever holds it. -/
  | use (id : ProcessId) (operation : Channel.Operation)
  /-- Anything else that happens to a process: a part of an exchange, or that the engine exits. -/
  | stir (id : ProcessId) (change : EngineProcess π → EngineProcess π)

namespace Turn

variable {π : Type}

/-- Whether a turn attaches to the manager. -/
def isAttach : Turn π → Bool
  | .attach => true
  | _ => false

end Turn

/-- A manager, the world, and what was begun so far, in order. -/
structure Contention (ω π : Type) where
  manager : Manager
  world : World ω π
  begun : List Begun := []

namespace Contention

variable {ω π : Type} [Peer π]

omit [Peer π] in
/-- A manager that nobody has used yet. -/
def start (descriptor : Descriptor) (world : World ω π) : Contention ω π :=
  { manager := .ofDescriptor descriptor, world }

/-- What attaching gives now, and what it leaves. -/
def attached (launcher : Launcher ω π) (s : Contention ω π) :
    Except Error ProcessId × Manager × World ω π := Manager.attach launcher (s.manager, s.world)

omit [Peer π] in
/-- What a turn begins. -/
def beginning? (s : Contention ω π) : Turn π → Option Begun
  | .beginReset => some (.reset s.manager.slot)
  | .beginShutdown => some (.shutdown s.manager.takeSlot.1)
  | _ => none

/-- Finishes what was begun. -/
def finish (begun : Begun) (isBusy : Bool) (w : World ω π) : World ω π :=
  match begun with
  | .reset target => Manager.finishReset target w
  | .shutdown target => Manager.finishShutdown target (fun _ => isBusy) w

/-- One turn. -/
def step (launcher : Launcher ω π) (s : Contention ω π) (turn : Turn π) : Contention ω π :=
  let begun := s.begun ++ (s.beginning? turn).toList
  match turn with
  | .attach => { s with manager := (s.attached launcher).2.1, world := (s.attached launcher).2.2 }
  | .beginReset => { s with begun }
  | .beginShutdown => { s with manager := s.manager.takeSlot.2, begun }
  | .finish k isBusy =>
    match s.begun[k]? with
    | none => s
    | some begun => { s with world := finish begun isBusy s.world }
  | .use id operation =>
    let (_, pool) := s.world.pool.act id (Attempt.modify operation.left)
    { s with world := { s.world with pool } }
  | .stir id change => { s with world := { s.world with pool := s.world.pool.update id change } }

/-- Turns one after the other. -/
def run (launcher : Launcher ω π) (s : Contention ω π) (turns : List (Turn π)) : Contention ω π :=
  turns.foldl (step launcher) s

/-- What turns come to, of a manager that nobody has used yet. -/
def reached (launcher : Launcher ω π) (descriptor : Descriptor) (world : World ω π)
    (turns : List (Turn π)) : Contention ω π := (start descriptor world).run launcher turns

/-- The living process in the slot. -/
def living? (s : Contention ω π) : Option ProcessId := s.manager.current? s.world

/-- Whether a turn needs a new process: it attaches, none is alive in the slot, and nothing says that the
engine cannot be started. -/
def isInNeed (s : Contention ω π) (turn : Turn π) : Bool :=
  turn.isAttach && s.living?.isNone && s.manager.failure.isNone

/-- How many turns need a new process. -/
def needs (launcher : Launcher ω π) (s : Contention ω π) : List (Turn π) → Nat
  | [] => 0
  | turn :: turns => (if s.isInNeed turn then 1 else 0) + needs launcher (s.step launcher turn) turns

end Contention

end EnginePipe.Launch
