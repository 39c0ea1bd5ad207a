import EnginePipe.Engine.Pipe
import EnginePipe.Engine.Script
import EnginePipe.Frame.Reassembler
import EnginePipe.Frame.Response

/-!
# The toy engine

An engine for the small script language.  It gathers lines to frames, keeps one scope for each context
that it was sent a source text for, and answers each request with one line, unless the source text
ends it.

* `serve_teardown`: forgetting a context always succeeds.
* `scope_keep_self`, `scope_keep_of_ne`: contexts do not share scopes.
-/

namespace EnginePipe.Engine

open Channel (Heard)

/-- A toy engine at work. -/
structure Toy where
  scopes : List (ContextId × Scope) := []
  reassembler : Reassembler := .empty
  heard : List Heard := []

namespace Toy

/-- An engine that was just started. -/
def fresh : Toy := { }

/-- The scope of a context; it starts empty. -/
def scope (t : Toy) (id : ContextId) : Scope := (t.scopes.lookup id).getD []

/-- Drops the scope of a context. -/
def forget (t : Toy) (id : ContextId) : Toy :=
  { t with scopes := t.scopes.filter (fun entry => entry.1 ≠ id) }

/-- Keeps a scope for a context. -/
def keep (t : Toy) (id : ContextId) (scope : Scope) : Toy :=
  { t with scopes := (id, scope) :: (t.forget id).scopes }

/-- Carries out a request; no response if that ends the engine. -/
def serve [Build] (t : Toy) : Request → Option Response × Toy
  | .teardown id => (some (.ok .null), t.forget id)
  | .evaluate id source =>
    let (outcome, scope) := evaluate source.toList (t.scope id)
    let response := match outcome with
      | .value v => some (.ok v)
      | .error message => some (.err message)
      | .exit => none
    (response, t.keep id scope)

/-- What is said of a frame that is JSON but no request. -/
def noRequest : String := "data did not match any variant of untagged enum Request"

/-- What is said of a frame that is no request. -/
def badFrame [Build] (frame : String) : String :=
  "bad frame: " ++
    if (Json.read? frame).isSome then noRequest else (Json.Fault.of frame).message

/-- Notes what was heard. -/
def note (t : Toy) (h : Heard) : Toy := { t with heard := t.heard ++ [h] }

/-- Reacts to a frame. -/
def answer [Build] (t : Toy) (frame : String) : Reaction × Toy :=
  match Request.decode? frame with
  | none => ({ answers := [(Response.err (badFrame frame)).encode] }, t)
  | some request =>
    match (t.note (.request request)).serve request with
    | (some response, t) => ({ answers := [response.encode] }, t)
    | (none, t) => ({ answers := [], exits := true }, t)

/-- Reacts to a line. -/
def react [Build] (line : String) (t : Toy) : Reaction × Toy :=
  let (frame, reassembler) := t.reassembler.push line
  let t := { t.note (.line line) with reassembler }
  match frame with
  | none => ({ answers := [] }, t)
  | some frame => t.answer frame

instance [Build] : LineProgram Toy where
  react := react
  isSupervised _ := false
  heard := heard

@[simp] theorem serve_teardown [Build] (t : Toy) (id : ContextId) :
    t.serve (.teardown id) = (some (.ok .null), t.forget id) := rfl

theorem lookup_filter_ne {α : Type} {id other : ContextId} (h : other ≠ id)
    (entries : List (ContextId × α)) :
    (entries.filter (fun entry => entry.1 ≠ id)).lookup other = entries.lookup other := by
  induction entries with
  | nil => rfl
  | cons entry entries ih =>
    by_cases he : entry.1 = id
    · have hne : (other == entry.1) = false := by simpa [he] using h
      rw [List.filter_cons_of_neg (by simpa using he), ih, List.lookup_cons, hne]
    · rw [List.filter_cons_of_pos (by simpa using he), List.lookup_cons, List.lookup_cons, ih]

theorem scope_keep_self (t : Toy) (id : ContextId) (s : Scope) : (t.keep id s).scope id = s := by
  simp [scope, keep]

theorem scope_keep_of_ne (t : Toy) {id other : ContextId} (h : other ≠ id) (s : Scope) :
    (t.keep id s).scope other = t.scope other := by
  have hb : (other == id) = false := by simpa using h
  simp only [scope, keep, forget, List.lookup_cons, hb]
  rw [lookup_filter_ne h]

end Toy

end EnginePipe.Engine
