import EnginePipe.Error

/-!
# Attempts

An **attempt** is a step that changes a state and may fail.  A failure keeps the changes made before
it: a write that failed half-way has still been written.

* `bind_apply`: a sequence goes on from the state that the first step left, and only if it succeeded.
* `Attempt.within`: an attempt on a part of the state.
-/

namespace EnginePipe

/-- A step on a state `σ` that gives an `α` or fails. -/
def Attempt (σ α : Type) : Type := σ → Except Error α × σ

namespace Attempt

variable {σ τ α β : Type}

/-- Runs an attempt. -/
def run (x : Attempt σ α) (s : σ) : Except Error α × σ := x s

/-- Goes on with `f` if the first step succeeded. -/
def andThen (x : Attempt σ α) (f : α → Attempt σ β) : Attempt σ β := fun s =>
  match x s with
  | (.ok a, s) => f a s
  | (.error e, s) => (.error e, s)

instance : Monad (Attempt σ) where
  pure a := fun s => (.ok a, s)
  bind := andThen

instance : MonadExcept Error (Attempt σ) where
  throw e := fun s => (.error e, s)
  tryCatch x handle := fun s =>
    match x s with
    | (.ok a, s) => (.ok a, s)
    | (.error e, s) => handle e s

@[simp] theorem pure_apply (a : α) (s : σ) : (pure a : Attempt σ α) s = (.ok a, s) := rfl

@[simp] theorem throw_apply (e : Error) (s : σ) :
    (throw e : Attempt σ α) s = (.error e, s) := rfl

theorem bind_apply (x : Attempt σ α) (f : α → Attempt σ β) (s : σ) :
    (x >>= f) s = match x s with
      | (.ok a, s) => f a s
      | (.error e, s) => (.error e, s) := rfl

theorem bind_apply_of_ok {x : Attempt σ α} {a : α} {s s' : σ} (h : x s = (.ok a, s'))
    (f : α → Attempt σ β) : (x >>= f) s = f a s' := by
  rw [bind_apply, h]

theorem bind_apply_of_error {x : Attempt σ α} {e : Error} {s s' : σ} (h : x s = (.error e, s'))
    (f : α → Attempt σ β) : (x >>= f) s = (.error e, s') := by
  rw [bind_apply, h]

/-- The state. -/
def get : Attempt σ σ := fun s => (.ok s, s)

/-- A step that cannot fail. -/
def step (f : σ → α × σ) : Attempt σ α := fun s => let (a, s) := f s; (.ok a, s)

/-- A change of the state. -/
def modify (f : σ → σ) : Attempt σ Unit := fun s => (.ok (), f s)

/-- An attempt on a part of the state, which `view` reads and `update` puts back. -/
def within (view : σ → τ) (update : τ → σ → σ) (x : Attempt τ α) : Attempt σ α := fun s =>
  let (result, part) := x (view s)
  (result, update part s)

end Attempt

end EnginePipe
