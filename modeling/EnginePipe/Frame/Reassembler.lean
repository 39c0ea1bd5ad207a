import EnginePipe.Frame.Framing
import EnginePipe.Json.Reader
import EnginePipe.Text.Blank

/-!
# Reassembling frames

The engine's side of framing: it is fed lines and gives back frames.  Lines are gathered until they
hold a whole JSON text, or until the sentinel ends them.  So a frame on one line comes out at once, a
sliced frame comes out at its last slice, and the sentinel that follows finds nothing gathered.
-/

namespace EnginePipe

/-- The slices gathered so far. -/
structure Reassembler where
  pending : String
deriving DecidableEq, Repr

namespace Reassembler

/-- Nothing gathered. -/
def empty : Reassembler := ⟨""⟩

/-- Whether part of a frame is gathered. -/
def isPending (r : Reassembler) : Bool := !r.pending.isEmpty

/-- A line without the line ends behind it. -/
def chomp (line : String) : String :=
  String.ofList (Text.dropWhileEnd (fun c => c = '\r' || c = '\n') line.toList)

/-- Feeds one line; gives the frame that it completes, if any. -/
def push (r : Reassembler) (line : String) : Option String × Reassembler :=
  let line := chomp line
  if line = Framing.sentinel then
    if r.isPending then (some r.pending, empty) else (none, r)
  else
    let gathered := r.pending ++ line
    if (Json.read? gathered).isSome then (some gathered, empty) else (none, ⟨gathered⟩)

/-- Feeds lines in order; gives the frames that they complete. -/
def run (r : Reassembler) : List String → List String × Reassembler
  | [] => ([], r)
  | line :: lines =>
    let (frame, r) := r.push line
    let (frames, r) := r.run lines
    (frame.toList ++ frames, r)

theorem run_append (r : Reassembler) (xs ys : List String) :
    r.run (xs ++ ys) =
      ((r.run xs).1 ++ ((r.run xs).2.run ys).1, ((r.run xs).2.run ys).2) := by
  induction xs generalizing r with
  | nil => simp [run]
  | cons x xs ih => simp [run, ih, List.append_assoc]

end Reassembler

end EnginePipe
