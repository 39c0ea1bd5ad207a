import EnginePipe.Frame.Request
import EnginePipe.Text.Bytes

/-!
# Peers

What stands at the other end of a channel.  A **sink** takes bytes in pieces of its own choice and may
fail at any of them.  A **peer** is a sink that also answers; its output is read line by line.

No laws are asked of a sink or peer, so that a statement about channels holds however the other end
behaves.

* `deliver`: the bytes in full, then a flush.
* `Streams`: the peer that a sink and a given output make.
-/

namespace EnginePipe.Channel

/-- An end that takes bytes. -/
class Sink (ω : Type) where
  /-- Offers bytes; gives the number of bytes taken. -/
  write : List UInt8 → ω → Except String Nat × ω
  flush : ω → Except String Unit × ω

/-- A line that an engine was sent, or the request that it completed. -/
inductive Heard where
  | line (text : String)
  | request (r : Request)
deriving DecidableEq, Repr

/-- The requests among what was heard. -/
def Heard.requests (heard : List Heard) : List Request :=
  heard.filterMap fun
    | .request r => some r
    | .line _ => none

/-- The lines among what was heard. -/
def Heard.lines (heard : List Heard) : List String :=
  heard.filterMap fun
    | .line text => some text
    | .request _ => none

/-- The other end of a channel. -/
class Peer (π : Type) extends Sink π where
  /-- Reads one line with its end; nothing at the end of the output. -/
  readLine : π → List UInt8 × π
  /-- Whether the peer is a program that is known to have exited. -/
  hasExited : π → Bool
  /-- Closes both directions. -/
  hangUp : π → π
  /-- Ends the peer, if it is a program that can be ended. -/
  kill : π → π
  /-- What the peer keeps of what it was sent. -/
  heard : π → List Heard

variable {ω : Type}

/-- What is said of a sink that takes nothing. -/
def nothingTaken : String := "failed to write whole buffer"

/-- Writes bytes until all are taken. -/
def writeAll [Sink ω] (data : List UInt8) (sink : ω) : Except String Unit × ω :=
  match data with
  | [] => (.ok (), sink)
  | b :: rest =>
    match Sink.write (b :: rest) sink with
    | (.error reason, sink) => (.error reason, sink)
    | (.ok 0, sink) => (.error nothingTaken, sink)
    | (.ok (taken + 1), sink) => writeAll (rest.drop taken) sink
termination_by data.length
decreasing_by simp only [List.length_drop, List.length_cons]; omega

/-- Writes bytes until all are taken, then flushes. -/
def deliver [Sink ω] (data : List UInt8) (sink : ω) : Except String Unit × ω :=
  match writeAll data sink with
  | (.ok (), sink) => Sink.flush sink
  | (.error reason, sink) => (.error reason, sink)

@[simp] theorem writeAll_nil [Sink ω] (sink : ω) : writeAll [] sink = (.ok (), sink) := by
  rw [writeAll]

theorem writeAll_of_taken [Sink ω] {data : List UInt8} {sink sink' : ω} (hd : data ≠ [])
    (h : Sink.write data sink = (.ok data.length, sink')) :
    writeAll data sink = (.ok (), sink') := by
  cases data with
  | nil => exact absurd rfl hd
  | cons b rest =>
    rw [writeAll]
    simp only [h, List.length_cons]
    rw [List.drop_length, writeAll_nil]

/-! ### Streams -/

/-- A sink, and an output that is there from the start. -/
structure Streams (ω : Type) where
  sink : ω
  output : List UInt8

instance [Sink ω] : Peer (Streams ω) where
  write data s :=
    let (result, sink) := Sink.write data s.sink
    (result, { s with sink })
  flush s :=
    let (result, sink) := Sink.flush s.sink
    (result, { s with sink })
  readLine s :=
    let (line, output) := Text.takeLine s.output
    (line, { s with output })
  hasExited _ := false
  hangUp := id
  kill := id
  heard _ := []

end EnginePipe.Channel
