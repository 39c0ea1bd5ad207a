import EnginePipe.Bridge.External

/-!
# Runtimes

One way to evaluate source texts: through engine processes, or not at all.  A runtime acts on a world
and keeps a state of its own.

* `withContext`: something done in a context that is closed on every path.
* `exec_disabled`, `eval_disabled`: the disabled runtime refuses everything.
-/

namespace EnginePipe.Bridge

open Channel (Peer)
open Launch (World)

/-- One way to evaluate source texts. -/
inductive Runtime (ω π : Type) where
  | external (x : External ω π)
  /-- Always available, and always refusing. -/
  | disabled

namespace Runtime

variable {ω π α : Type}

/-- The name shown to people. -/
def name : Runtime ω π → String
  | external x => x.descriptor.name
  | disabled => "Disabled"

/-- Whether a runtime is only used when it is asked for. -/
def isDeprecated : Runtime ω π → Bool
  | external _ => false
  | disabled => true

/-- Whether a runtime can be used.  This never starts an engine. -/
def isAvailable (r : Runtime ω π) (w : World ω π) : Bool × Runtime ω π × World ω π :=
  match r with
  | external x =>
    let (answer, x, w) := x.isAvailable w
    (answer, external x, w)
  | disabled => (true, disabled, w)

/-- Opens a context and evaluates a preamble in it. -/
def compile [Peer π] (preamble : String) :
    Attempt (Runtime ω π × World ω π) (Context PipeSession) := fun (r, w) =>
  match r with
  | external x =>
    let (result, x, w) := External.compile preamble (x, w)
    (result, external x, w)
  | disabled => (.error .disabled, disabled, w)

/-- Does something in a new context, which is closed afterwards. -/
def withContext [Peer π] (preamble : String)
    (body : Attempt (Context PipeSession × World ω π) α) : Attempt (Runtime ω π × World ω π) α := do
  let c ← compile preamble
  Attempt.within Prod.snd (fun w (r, _) => (r, w)) (c.finish body)

/-- Runs a function body in a context of its own. -/
def exec [Peer π] (source : String) : Attempt (Runtime ω π × World ω π) Json.Value :=
  withContext "" (Context.lift fun c => c.exec source)

/-- Evaluates an expression in a context of its own. -/
def eval [Peer π] (source : String) : Attempt (Runtime ω π × World ω π) Json.Value :=
  withContext "" (Context.lift fun c => c.eval source)

/-- Ends the engine that the runtime keeps running. -/
def shutdown [Peer π] (r : Runtime ω π) (w : World ω π) : Runtime ω π × World ω π :=
  match r with
  | external x =>
    let (x, w) := x.shutdown w
    (external x, w)
  | disabled => (disabled, w)

/-- Ends the engine that the runtime keeps running, so that the next context gets a new one. -/
def reset [Peer π] (r : Runtime ω π) (w : World ω π) : World ω π :=
  match r with
  | external x => x.reset w
  | disabled => w

theorem withContext_disabled [Peer π] (preamble : String)
    (body : Attempt (Context PipeSession × World ω π) α) (w : World ω π) :
    withContext preamble body (disabled, w) = (.error .disabled, disabled, w) := rfl

theorem exec_disabled [Peer π] (source : String) (w : World ω π) :
    exec source (disabled, w) = (.error .disabled, disabled, w) := rfl

theorem eval_disabled [Peer π] (source : String) (w : World ω π) :
    eval source (disabled, w) = (.error .disabled, disabled, w) := rfl

end Runtime

end EnginePipe.Bridge
