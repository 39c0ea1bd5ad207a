import EnginePipe.Frame.Framing

/-!
# Descriptors

A descriptor says what one kind of engine is called, which commands may start it, which program it
has to run, and how it is talked to.
-/

namespace EnginePipe

/-- One kind of engine. -/
structure Descriptor where
  /-- The name shown to people. -/
  name : String
  /-- Commands to try in this order; each is a program and arguments with blanks between them. -/
  commands : List String := []
  /-- The program that the engine runs, which answers requests. -/
  bootstrap : String := ""
  /-- Whether one process serves all contexts. -/
  isShared : Bool := false
  /-- The greatest width of a line, if there is one. -/
  maxFrameSize : Option Nat := none
  /-- Whether the engine cannot take lines of any length. -/
  needsShortLines : Bool := false
  /-- What occurs in the engine's message about source it cannot read. -/
  syntaxMarker : String := "SyntaxError"
deriving DecidableEq, Repr

namespace Descriptor

/-- The width of lines where they have to be short and no width is given. -/
def defaultFrameSize : Nat := 4096

/-- The layout of requests to the engine. -/
def framing (d : Descriptor) : Framing :=
  match d.maxFrameSize with
  | some size => .ofSize size
  | none => if d.needsShortLines then .ofSize defaultFrameSize else .line

end Descriptor

end EnginePipe
