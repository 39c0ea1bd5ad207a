import EnginePipe.Channel.Usage

/-!
# Lifelines

A process can be checked and ended by whoever has a **lifeline** of it, without holding the process.  A
lifeline is no more than a place in a memory of flags: the process reads its own flag before each request
and drops it when it ends, and so may everyone who knows the place.  The streams belong to the process alone,
and a lifeline cannot reach them.

A **holding** is a process over connected streams with its lifelines.  There is no program behind such a
process, so the flag is all that a lifeline can end.

* `Holding.process`: the process as its flag says it is.
* `Holding.run`: what is done with the process and with its lifelines, one after the other.
-/

namespace EnginePipe.Channel

/-- A handle on a process: where its flag stands. -/
structure Lifeline where
  place : Nat
deriving DecidableEq, Repr

namespace Lifeline

/-- Whether the process can be used. -/
def isAlive (l : Lifeline) (flags : List Bool) : Bool := flags.getD l.place false

/-- Drops the flag. -/
def markDead (l : Lifeline) (flags : List Bool) : List Bool := flags.set l.place false

/-- Drops the flag; a program would be ended as well. -/
def kill (l : Lifeline) (flags : List Bool) : List Bool := l.markDead flags

end Lifeline

/-- Something that was learned. -/
inductive Finding where
  /-- A question came to something. -/
  | asked (entry : Entry)
  /-- A lifeline was asked whether the process is alive. -/
  | looked (alive : Bool)

/-- Something that is done with a process or with one of its lifelines, by its number. -/
inductive Deed where
  | use (operation : Operation)
  /-- The process gives away a lifeline. -/
  | share
  | clone (i : Nat)
  | look (i : Nat)
  | markDead (i : Nat)
  | kill (i : Nat)
deriving DecidableEq, Repr

/-- A process over connected streams, and its lifelines. -/
structure Holding (ω : Type) where
  /-- The flags of all processes. -/
  flags : List Bool
  runtime : String
  transport : Transport (Streams ω)
  /-- The lifeline of the process itself. -/
  own : Lifeline
  /-- The lifelines that were given away. -/
  lifelines : List Lifeline := []
  findings : List Finding := []

namespace Holding

variable {ω : Type}

/-- A process that is started where others have been started before. -/
def start (others : List Bool) (runtime : String) (s : Streams ω) (framing : Framing) : Holding ω where
  flags := others ++ [true]
  runtime := runtime
  transport := { peer := s, framing }
  own := ⟨others.length⟩

/-- The process as its flag says it is. -/
def process (h : Holding ω) : EngineProcess (Streams ω) :=
  { runtime := h.runtime, transport := h.transport, usable := h.own.isAlive h.flags }

/-- The holding with what has become of its process. -/
def keep (h : Holding ω) (p : EngineProcess (Streams ω)) : Holding ω :=
  { h with transport := p.transport, flags := h.flags.set h.own.place p.usable }

/-- Writes down what was learned. -/
def learn (h : Holding ω) (finding : Finding) : Holding ω := { h with findings := h.findings ++ [finding] }

/-- Changes the flags through a lifeline; one that there is not changes nothing. -/
def through (h : Holding ω) (i : Nat) (change : Lifeline → List Bool → List Bool) : Holding ω :=
  match h.lifelines[i]? with
  | some l => { h with flags := change l h.flags }
  | none => h

/-- Asks a lifeline whether the process is alive. -/
def look (h : Holding ω) (i : Nat) : Holding ω :=
  match h.lifelines[i]? with
  | some l => h.learn (.looked (l.isAlive h.flags))
  | none => h

variable [Sink ω]

/-- Does one thing. -/
def step (h : Holding ω) : Deed → Holding ω
  | .use (.ask question) =>
    (h.keep (question.ask h.process).2).learn
      (.asked ⟨question, h.process.isAlive, (question.ask h.process).1⟩)
  | .use (.finish ending) => h.keep (ending.apply h.process)
  | .share => { h with lifelines := h.lifelines ++ [h.own] }
  | .clone i => { h with lifelines := h.lifelines ++ h.lifelines[i]?.toList }
  | .look i => h.look i
  | .markDead i => h.through i Lifeline.markDead
  | .kill i => h.through i Lifeline.kill

/-- Does one thing after the other. -/
def run (h : Holding ω) (deeds : List Deed) : Holding ω := deeds.foldl step h

end Holding

end EnginePipe.Channel
