import EnginePipe.Frame.Request
import EnginePipe.Frame.Slices

/-!
# Framing

How an encoded request is laid out as lines: whole on one line, or as slices on lines of bounded
width with a closing line behind them.
-/

namespace EnginePipe

/-- A layout of frames. -/
inductive Framing where
  /-- The whole frame on one line. -/
  | line
  /-- Slices of at most `size` bytes, then the sentinel. -/
  | chunked (size : Nat)
deriving DecidableEq, Repr

namespace Framing

/-- The line behind the slices of a frame. -/
def sentinel : String := "END"

/-- Chunked framing with a size that an atom fits into. -/
def ofSize (size : Nat) : Framing := .chunked (max size Slices.minSize)

/-- The lines of a frame, without their ends; nothing if the frame cannot be cut. -/
def lines (framing : Framing) (frame : String) : Option (List String) :=
  match framing with
  | .line => some [frame]
  | .chunked size => (Slices.ofFrame frame size).map (· ++ [sentinel])

/-- The text of a frame on the wire. -/
def wrap (framing : Framing) (frame : String) : Option String :=
  (framing.lines frame).map fun lines => String.join (lines.map (· ++ "\n"))

/-- The text of a request on the wire. -/
def encode (framing : Framing) (request : Request) : Option String := framing.wrap request.encode

@[simp] theorem lines_line (frame : String) : Framing.line.lines frame = some [frame] := rfl

end Framing

end EnginePipe
