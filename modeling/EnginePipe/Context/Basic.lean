import EnginePipe.Context.Session
import EnginePipe.Source
import EnginePipe.Text.Quoted

/-!
# Contexts

An isolated place to evaluate source texts in; what is assigned there stays there.  A context holds its
session until it is closed, and closing takes the session out: later closes find none and succeed, and
later evaluations fail.

* `eval_of_blank`: a blank expression is null, without a session.
* `evaluateString_of_closed`: a closed context evaluates nothing.
* `close_of_closed`: closing again does nothing.
-/

namespace EnginePipe

/-- An isolated place to evaluate source texts in. -/
structure Context (s : Type) where
  id : ContextId
  /-- The name of the runtime it belongs to. -/
  runtime : String
  /-- Its session, unless the context is closed. -/
  session : Option s

namespace Context

variable {s σ α : Type}

/-- Whether a context is closed. -/
def isClosed (c : Context s) : Bool := c.session.isNone

/-- A context without its session. -/
def closed (c : Context s) : Context s := { c with session := none }

/-! ### Evaluation -/

/-- Evaluates a source text as it is. -/
def evaluateString [Session s σ] (c : Context s) (source : String) : Attempt σ Json.Value :=
  match c.session with
  | none => throw (.contextClosed c.id)
  | some session => Session.evaluate session source

/-- The value in what an engine gave for an expression.  Text is read as an array whose first item is
the value; anything else is the value itself. -/
def unpack (encoded : Json.Value) : Except Error Json.Value :=
  match encoded with
  | .string text =>
    match Json.readArray? text with
    | some items => .ok (items.headD .null)
    | none => .error (.json (.ofArray text))
  | v => .ok v

/-- Evaluates an expression; a blank one is null. -/
def eval [Session s σ] (c : Context s) (source : String) : Attempt σ Json.Value :=
  let expression := Source.trimmed source
  if Source.isBlank expression then pure .null
  else do
    let encoded ← c.evaluateString (Source.asJson expression)
    fun w => (unpack encoded, w)

/-- Runs a function body; its value is what it returns. -/
def exec [Session s σ] (c : Context s) (source : String) : Attempt σ Json.Value :=
  c.eval (Source.asFunction source)

/-- Calls the function at a path. -/
def call [Session s σ] (c : Context s) (path : String) (arguments : List Json.Value) :
    Attempt σ Json.Value :=
  c.eval (Source.applied path arguments)

/-! ### Beginning and end -/

/-- Releases the session of a context, if it has one. -/
def release [Session s σ] (c : Context s) : Attempt σ Unit :=
  match c.session with
  | none => pure ()
  | some session => Session.close session

/-- Closes a context. -/
def close [Session s σ] : Attempt (Context s × σ) Unit := fun (c, w) =>
  let (result, w) := c.release w
  (result, c.closed, w)

/-- Opens a context and evaluates a preamble in it as it is.  If that fails the session is closed. -/
def start [Session s σ] (runtime : String) (session : s) (preamble : String) :
    Attempt σ (Context s) := fun w =>
  let c : Context s := ⟨Session.id σ session, runtime, some session⟩
  match c.evaluateString preamble w with
  | (.ok _, w) => (.ok c, w)
  | (.error e, w) => (.error e, (c.release w).2)

/-- Does something that leaves the context as it is. -/
def lift (x : Context s → Attempt σ α) : Attempt (Context s × σ) α := fun (c, w) =>
  let (result, w) := x c w
  (result, c, w)

/-- Does something in a context and closes it.  If both fail, the first error counts. -/
def finish [Session s σ] (c : Context s) (body : Attempt (Context s × σ) α) : Attempt σ α := fun w =>
  let (result, c, w) := body (c, w)
  let (released, w) := c.release w
  match result, released with
  | .error e, _ => (.error e, w)
  | .ok _, .error e => (.error e, w)
  | .ok a, .ok () => (.ok a, w)

/-! ### Laws -/

theorem eval_of_blank [Session s σ] (c : Context s) {source : String}
    (h : Source.isBlank (Source.trimmed source)) : (c.eval source : Attempt σ _) = pure .null := by
  simp [eval, h]

theorem evaluateString_of_closed [Session s σ] {c : Context s} (h : c.session = none)
    (source : String) (w : σ) :
    c.evaluateString source w = (.error (.contextClosed c.id), w) := by
  simp [evaluateString, h]

theorem close_of_closed [Session s σ] {c : Context s} (h : c.session = none) (w : σ) :
    close (c, w) = (.ok (), c.closed, w) := by
  simp [close, release, h]

@[simp] theorem isClosed_closed (c : Context s) : c.closed.isClosed = true := rfl

/-- A context as it is shown to developers. -/
def describe (c : Context s) : String :=
  "Context \x7b id: " ++ toString c.id.toNat ++ ", runtime: " ++ Text.quoted c.runtime ++ ", closed: " ++
    toString c.isClosed ++ " \x7d"

end Context

end EnginePipe
