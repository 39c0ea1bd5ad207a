import EnginePipe.Launch.Pool

/-!
# Worlds

What runtimes act on: the host, the processes that were started on it, and the key that the next context
gets.  Keys are counted up, so no two contexts of one world have the same key until all are used up.

* `nextContext_takeId`: taking a key moves on to the next.
-/

namespace EnginePipe.Launch

/-- The host, its processes, and the key of the next context. -/
structure World (ω π : Type) where
  host : ω
  pool : Pool π := .empty
  nextContext : ContextId := 1

namespace World

variable {ω π : Type}

/-- Takes the key for a new context. -/
def takeId (w : World ω π) : ContextId × World ω π :=
  (w.nextContext, { w with nextContext := w.nextContext + 1 })

@[simp] theorem nextContext_takeId (w : World ω π) :
    w.takeId.2.nextContext = w.takeId.1 + 1 := rfl

end World

end EnginePipe.Launch
