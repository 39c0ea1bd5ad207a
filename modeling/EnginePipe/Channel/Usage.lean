import EnginePipe.Channel.EngineProcess

/-!
# Usage of a process

What can be done with a process by whoever holds it, and by whoever holds its lifeline only: questions,
each of which sends one request, and the ways to end the process.  A **usage** is a process after some of
these operations, with what its questions came to.

* `Usage.run`: operations one after the other.
* `Question.answerTo`: what a question comes to if a certain line answers it.
-/

namespace EnginePipe.Channel

/-- A request that is made of a process, and how its answer is taken. -/
inductive Question where
  | evaluate (request : Request) (marker : String)
  | exchange (request : Request)
  | teardown (context : ContextId)
deriving DecidableEq, Repr

/-- What a question may give. -/
inductive Answer where
  | value (v : Json.Value)
  /-- The line itself; nothing at the end of the output. -/
  | line (text : Option String)
  | done
deriving Repr

/-- A way to end a process.  A lifeline has the first two. -/
inductive Ending where
  | markDead
  | sever
  | close
  | kill
deriving DecidableEq, Repr

/-- Something that is done with a process. -/
inductive Operation where
  | ask (question : Question)
  | finish (ending : Ending)
deriving DecidableEq, Repr

namespace Question

/-- The request that a question sends. -/
def request : Question → Request
  | .evaluate request _ => request
  | .exchange request => request
  | .teardown context => .teardown context

variable {π : Type} [Peer π]

/-- Asks a process. -/
def ask : Question → Attempt (EngineProcess π) Answer
  | .evaluate request marker => do return .value (← EngineProcess.evaluate request marker)
  | .exchange request => do return .line (← EngineProcess.exchange request)
  | .teardown context => do
    EngineProcess.teardown context
    return .done

/-- What comes of the line that was read, or of the failure to read one. -/
def conclude (runtime : String) (line : Except Error (Option String)) : Question → Except Error Answer
  | .exchange _ => line.map .line
  | .teardown context =>
    line.bind fun
      | some _ => .ok .done
      | none => .error (.desync (.noTeardownResponse runtime context))
  | .evaluate request marker =>
    line.bind fun line =>
      match Reply.ofLine line marker with
      | .ok (.value v) => .ok (.value v)
      | .ok (.syntaxError message) => .error (.syntaxError message)
      | .ok (.programError message) => .error (.programError message)
      | .ok .absent => .error (.desync (.noResponse runtime request.context))
      | .error fault => .error (.desync (.malformedResponse runtime fault))

/-- A line as it is read; no bytes are the end of the output. -/
def textOf (line : List UInt8) : Except Error (Option String) :=
  if line.isEmpty then .ok none
  else
    match Text.ofBytes? line with
    | some text => .ok (some text)
    | none => .error (.desync (.readFailed Text.invalidText))

/-- What a question comes to if a line answers it. -/
def answerTo (runtime : String) (line : List UInt8) (question : Question) : Except Error Answer :=
  question.conclude runtime (textOf line)

end Question

/-- Ends a process. -/
def Ending.apply {π : Type} [Peer π] : Ending → EngineProcess π → EngineProcess π
  | .markDead => EngineProcess.markDead
  | .sever => EngineProcess.sever
  | .close => EngineProcess.close
  | .kill => EngineProcess.kill

/-- The process after an operation. -/
def Operation.left {π : Type} [Peer π] : Operation → EngineProcess π → EngineProcess π
  | .ask question => fun p => (question.ask p).2
  | .finish ending => ending.apply

/-- A question that was asked, and what it came to. -/
structure Entry where
  question : Question
  /-- Whether the process was alive when it was asked. -/
  wasAlive : Bool
  result : Except Error Answer

/-- A process, and what it was asked so far. -/
structure Usage (π : Type) where
  process : EngineProcess π
  entries : List Entry := []

namespace Usage

variable {π : Type} [Peer π]

/-- Does one thing. -/
def step (u : Usage π) (operation : Operation) : Usage π :=
  let process := operation.left u.process
  match operation with
  | .ask question =>
    { process, entries := u.entries ++ [⟨question, u.process.isAlive, (question.ask u.process).1⟩] }
  | .finish _ => { u with process }

/-- Does one thing after the other. -/
def run (u : Usage π) (operations : List Operation) : Usage π := operations.foldl step u

omit [Peer π] in
/-- The questions that found the process alive, in order: only these are sent. -/
def issued (u : Usage π) : List Entry := u.entries.filter (·.wasAlive)

omit [Peer π] in
/-- The requests that were issued. -/
def requests (u : Usage π) : List Request := u.issued.map (·.question.request)

end Usage

end EnginePipe.Channel
