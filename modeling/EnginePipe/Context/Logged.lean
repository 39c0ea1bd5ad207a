import EnginePipe.Context.Session

/-!
# Logged sessions

Sessions whose calls are written down in the order in which they happen, each with what came of it.
-/

namespace EnginePipe

/-- A call that reached a session, and what came of it. -/
inductive SessionCall (s : Type) where
  | evaluated (session : s) (source : String) (result : Except Error Json.Value)
  | closed (session : s) (result : Except Error Unit)

/-- A world, and the calls that its sessions have had. -/
structure Logged (s σ : Type) where
  world : σ
  calls : List (SessionCall s) := []

instance {s σ : Type} [Session s σ] : Session s (Logged s σ) where
  id := Session.id σ
  evaluate session source l :=
    let (result, world) := Session.evaluate session source l.world
    (result, ⟨world, l.calls ++ [.evaluated session source result]⟩)
  close session l :=
    let (result, world) := Session.close session l.world
    (result, ⟨world, l.calls ++ [.closed session result]⟩)

end EnginePipe
