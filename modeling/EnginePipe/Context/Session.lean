import EnginePipe.Attempt

/-!
# Sessions

The engine's side of a context: it evaluates source texts as they are, and releases what the engine
keeps for the context.  A session acts on a world `σ`.
-/

namespace EnginePipe

/-- Sessions of the type `s` on a world `σ`. -/
class Session (s σ : Type) where
  /-- The key of the session's context. -/
  id : s → ContextId
  /-- Evaluates a source text as it is. -/
  evaluate : s → String → Attempt σ Json.Value
  /-- Releases what is kept for the context. -/
  close : s → Attempt σ Unit

end EnginePipe
