import EnginePipe.Channel.Usage

/-!
# Tapped peers

A peer with a tap on both directions: the bytes it takes, its flushes, what it refuses and the lines it
gives are written down in the order in which they happen.

* `Crossing.taken`, `Crossing.given`: each direction by itself.
* `Usage.tapped`: a usage with a tap on its peer.
-/

namespace EnginePipe.Channel

/-- Something that crosses between a process and its peer. -/
inductive Crossing where
  /-- Bytes that the peer took from one write. -/
  | took (data : List UInt8)
  /-- A flush that succeeded. -/
  | flushed
  /-- A write or a flush that failed, or a write of which nothing was taken; what is said of it. -/
  | refused (reason : String)
  /-- A line that was read; empty at the end of the output. -/
  | gave (line : List UInt8)
deriving DecidableEq, Repr

/-- The bytes that were taken. -/
def Crossing.taken (crossings : List Crossing) : List UInt8 :=
  crossings.flatMap fun
    | .took data => data
    | _ => []

/-- The lines that were read. -/
def Crossing.given (crossings : List Crossing) : List (List UInt8) :=
  crossings.filterMap fun
    | .gave line => some line
    | _ => none

/-- A peer, and what has crossed. -/
structure Tapped (π : Type) where
  peer : π
  crossings : List Crossing := []

namespace Tapped

variable {π : Type} [Peer π]

/-- What a write leaves on the tap.  A peer that says it took `n` bytes took the first `n`. -/
def ofWrite (data : List UInt8) : Except String Nat → List Crossing
  | .ok 0 => [.refused nothingTaken]
  | .ok n => [.took (data.take n)]
  | .error reason => [.refused reason]

/-- What a flush leaves on the tap. -/
def ofFlush : Except String Unit → List Crossing
  | .ok () => [.flushed]
  | .error reason => [.refused reason]

instance : Peer (Tapped π) where
  write data t :=
    let (result, peer) := Sink.write data t.peer
    (result, ⟨peer, t.crossings ++ ofWrite data result⟩)
  flush t :=
    let (result, peer) := Sink.flush t.peer
    (result, ⟨peer, t.crossings ++ ofFlush result⟩)
  readLine t :=
    let (line, peer) := Peer.readLine t.peer
    (line, ⟨peer, t.crossings ++ [.gave line]⟩)
  hasExited t := Peer.hasExited t.peer
  hangUp t := { t with peer := Peer.hangUp t.peer }
  kill t := { t with peer := Peer.kill t.peer }
  heard t := Peer.heard t.peer

end Tapped

variable {π : Type}

/-- A transport with a tap on its peer. -/
def Transport.tapped (t : Transport π) (crossings : List Crossing) : Transport (Tapped π) :=
  { peer := ⟨t.peer, crossings⟩, framing := t.framing, isClosed := t.isClosed }

/-- A process with a tap on its peer. -/
def EngineProcess.tapped (p : EngineProcess π) (crossings : List Crossing) : EngineProcess (Tapped π) :=
  { runtime := p.runtime, transport := p.transport.tapped crossings, usable := p.usable }

namespace Usage

/-- A usage with a tap on the peer of its process. -/
def tapped (u : Usage π) (crossings : List Crossing) : Usage (Tapped π) :=
  { process := u.process.tapped crossings, entries := u.entries }

/-- What has crossed. -/
def crossings (u : Usage (Tapped π)) : List Crossing := u.process.transport.peer.crossings

end Usage

end EnginePipe.Channel
