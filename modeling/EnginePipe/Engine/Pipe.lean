import EnginePipe.Channel.Peer
import EnginePipe.Host.SystemError
import EnginePipe.Text.Bytes

/-!
# Pipes to programs

A program that reads lines and answers lines, and the pair of pipes to it.  The program gets a line as
soon as the line is complete, and its answers wait in the pipe until they are read.  Once it has
exited nothing can be written to it, but what it answered before can still be read.

* `write_of_gone`: the pipe is broken.
* `feed_newline`: one whole line makes the program react once.
-/

namespace EnginePipe.Engine

open Channel (Heard Sink Peer)

/-- What a program does on a line. -/
structure Reaction where
  answers : List String
  exits : Bool := false
deriving DecidableEq, Repr

/-- A program that reads lines and answers lines. -/
class LineProgram (ε : Type) where
  react : String → ε → Reaction × ε
  /-- Whether the host started it as a program of its own, whose exit it can see. -/
  isSupervised : ε → Bool
  /-- What the program keeps of what it was sent. -/
  heard : ε → List Heard

/-- A program and the pipes to it. -/
structure Pipe (ε : Type) where
  program : ε
  /-- The start of a line that is not complete. -/
  input : List UInt8 := []
  /-- What was answered and not read. -/
  output : List UInt8 := []
  /-- The program has exited. -/
  isGone : Bool := false

namespace Pipe

variable {ε : Type} [LineProgram ε]

/-- A program that was just started. -/
def start (program : ε) : Pipe ε := { program }

/-- Ends the program. -/
def exit (p : Pipe ε) : Pipe ε := { p with isGone := true }

/-- Has the program react to a line.  One that is no text ends it. -/
def hear (p : Pipe ε) (line : List UInt8) : Pipe ε :=
  if p.isGone then p
  else
    match Text.ofBytes? line with
    | none => p.exit
    | some text =>
      let (reaction, program) := LineProgram.react text p.program
      { p with
        program
        output := p.output ++ reaction.answers.flatMap fun answer => Text.bytes (answer ++ "\n")
        isGone := reaction.exits }

/-- Takes bytes in. -/
def feed (p : Pipe ε) (data : List UInt8) : Pipe ε :=
  let (lines, rest) := Text.cutLines (p.input ++ data)
  { lines.foldl hear p with input := rest }

/-- Offers bytes. -/
def write (data : List UInt8) (p : Pipe ε) : Except String Nat × Pipe ε :=
  if p.isGone then (.error Host.SystemError.brokenPipe.message, p)
  else (.ok data.length, p.feed data)

/-- Reads one line of what was answered. -/
def readLine (p : Pipe ε) : List UInt8 × Pipe ε :=
  let (line, output) := Text.takeLine p.output
  (line, { p with output })

instance : Peer (Pipe ε) where
  write := write
  flush p := (.ok (), p)
  readLine := readLine
  hasExited p := LineProgram.isSupervised p.program && p.isGone
  hangUp := exit
  kill p := if LineProgram.isSupervised p.program then p.exit else p
  heard p := LineProgram.heard p.program

theorem write_of_gone {p : Pipe ε} (h : p.isGone) (data : List UInt8) :
    write data p = (.error Host.SystemError.brokenPipe.message, p) := by
  simp [write, h]

theorem feed_newline {p : Pipe ε} (hp : p.input = []) {line : List UInt8}
    (hl : Text.newline ∉ line) :
    p.feed (line ++ [Text.newline]) = { p.hear line with input := [] } := by
  simp [feed, hp, Text.cutLines_append_newline hl, Text.cutLines]

end Pipe

end EnginePipe.Engine
