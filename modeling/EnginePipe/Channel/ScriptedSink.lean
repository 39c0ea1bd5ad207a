import EnginePipe.Channel.Peer

/-!
# Scripted sinks

A sink that takes bytes in pieces of bounded size and fails at a given point, and that remembers
everything about it.

* `write_taken`: what a write takes is what it was offered first.
-/

namespace EnginePipe.Channel

/-- A sink whose behaviour is fixed beforehand. -/
structure ScriptedSink where
  /-- The most bytes that one write takes. -/
  pieceSize : Option Nat := none
  /-- How many bytes are taken before writes fail. -/
  capacity : Option Nat := none
  failsFlush : Bool := false
  /-- What a failure says. -/
  reason : String := ""
  taken : List UInt8 := []
  writes : Nat := 0
  flushes : Nat := 0
deriving Repr

namespace ScriptedSink

/-- The bytes that one write takes of those offered. -/
def share (s : ScriptedSink) (data : List UInt8) : List UInt8 :=
  let piece := match s.pieceSize with
    | some size => data.take size
    | none => data
  match s.capacity with
  | some capacity => piece.take (capacity - s.taken.length)
  | none => piece

/-- Whether the next write fails. -/
def isFull (s : ScriptedSink) : Bool := s.capacity.any (· ≤ s.taken.length)

/-- Offers bytes. -/
def write (data : List UInt8) (s : ScriptedSink) : Except String Nat × ScriptedSink :=
  let s := { s with writes := s.writes + 1 }
  if s.isFull then (.error s.reason, s)
  else (.ok (s.share data).length, { s with taken := s.taken ++ s.share data })

/-- Flushes. -/
def flush (s : ScriptedSink) : Except String Unit × ScriptedSink :=
  (if s.failsFlush then .error s.reason else .ok (), { s with flushes := s.flushes + 1 })

instance : Sink ScriptedSink := ⟨write, flush⟩

theorem share_isPrefix (s : ScriptedSink) (data : List UInt8) : s.share data <+: data := by
  simp only [share]
  split <;> split
  · exact (List.take_prefix _ _).trans (List.take_prefix _ _)
  · exact List.take_prefix _ _
  · exact List.take_prefix _ _
  · exact List.prefix_rfl

theorem write_taken {data : List UInt8} {s : ScriptedSink} {n : Nat}
    (h : (write data s).1 = .ok n) : (write data s).2.taken = s.taken ++ data.take n := by
  simp only [write] at h ⊢
  split at h
  · simp at h
  · next hf =>
    rw [if_neg hf]
    simp only [Except.ok.injEq] at h
    subst h
    simp only
    rw [← List.prefix_iff_eq_take.1 (share_isPrefix _ data)]

end ScriptedSink

end EnginePipe.Channel
