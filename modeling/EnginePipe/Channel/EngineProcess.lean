import EnginePipe.Channel.Transport
import EnginePipe.Frame.Response

/-!
# Processes

A **process** is an engine that was started: a transport to it and the knowledge whether it can still
be used.  It is alive until it is closed or killed, or until an exchange leaves requests and answers
out of step.  A dead process takes no requests, and nothing makes it alive again.

* `exchange_of_dead`: a dead process refuses without touching its transport.
* `isAlive_markDead`, `isAlive_close`, `isAlive_kill`: the ways to end one.
-/

namespace EnginePipe.Channel

/-- An engine that was started. -/
structure EngineProcess (π : Type) where
  /-- The name of the runtime it serves. -/
  runtime : String
  transport : Transport π
  /-- Nothing has ended it so far. -/
  usable : Bool := true

namespace EngineProcess

variable {π : Type} [Peer π]

/-- A process on a peer. -/
def ofPeer (runtime : String) (peer : π) (framing : Framing) : EngineProcess π :=
  { runtime, transport := { peer, framing } }

/-- Whether a process can take requests: nothing has ended it, and it has not exited by itself. -/
def isAlive (p : EngineProcess π) : Bool := p.usable && !Peer.hasExited p.transport.peer

/-- What the peer keeps of what it was sent. -/
def heard (p : EngineProcess π) : List Heard := Peer.heard p.transport.peer

/-- Gives a process up; its transport stays as it is. -/
def markDead (p : EngineProcess π) : EngineProcess π := { p with usable := false }

/-- Ends the engine without touching the transport, as one can while an exchange is going on. -/
def sever (p : EngineProcess π) : EngineProcess π :=
  { p with usable := false, transport := { p.transport with peer := Peer.kill p.transport.peer } }

/-- Closes the transport and ends the engine. -/
def close (p : EngineProcess π) : EngineProcess π :=
  { p with
    usable := false
    transport := { p.transport.close with peer := Peer.kill p.transport.close.peer } }

/-- Ends the engine and closes the transport. -/
def kill (p : EngineProcess π) : EngineProcess π :=
  { p.sever with transport := p.sever.transport.close }

@[simp] theorem isAlive_markDead (p : EngineProcess π) : p.markDead.isAlive = false := rfl

@[simp] theorem isAlive_sever (p : EngineProcess π) : p.sever.isAlive = false := rfl

@[simp] theorem isAlive_close (p : EngineProcess π) : p.close.isAlive = false := rfl

@[simp] theorem isAlive_kill (p : EngineProcess π) : p.kill.isAlive = false := rfl

/-! ### Requests -/

/-- Sends one request and reads the line that answers it.  A failure of the transport ends the
process. -/
def exchange (request : Request) : Attempt (EngineProcess π) (Option String) := fun p =>
  if p.isAlive then
    match Transport.roundTrip request p.transport with
    | (.ok line, transport) => (.ok line, { p with transport })
    | (.error e, transport) => (.error e, { p with transport, usable := false })
  else (.error (.desync (.notRunning p.runtime)), p.markDead)

/-- Evaluates a request.  What the engine says about the source leaves the process alive; no answer,
or one that cannot be read, ends it. -/
def evaluate (request : Request) (marker : String) : Attempt (EngineProcess π) Json.Value := do
  let line ← exchange request
  match Reply.ofLine line marker with
  | .ok (.value v) => pure v
  | .ok (.syntaxError message) => throw (.syntaxError message)
  | .ok (.programError message) => throw (.programError message)
  | .ok .absent => giveUp fun p => .noResponse p.runtime request.context
  | .error fault => giveUp fun p => .malformedResponse p.runtime fault
where
  giveUp {α : Type} (cause : EngineProcess π → Desync) : Attempt (EngineProcess π) α := fun p =>
    (.error (.desync (cause p)), p.markDead)

/-- Has the engine forget a context.  What it answers does not matter, but that it does: one line is
read for each request. -/
def teardown (context : ContextId) : Attempt (EngineProcess π) Unit := do
  match ← exchange (.teardown context) with
  | some _ => pure ()
  | none => evaluate.giveUp fun p => .noTeardownResponse p.runtime context

theorem exchange_of_dead {p : EngineProcess π} (h : p.isAlive = false) (request : Request) :
    exchange request p = (.error (.desync (.notRunning p.runtime)), p.markDead) := by
  simp [exchange, h]

end EngineProcess

end EnginePipe.Channel
