import EnginePipe.Context.Session

/-!
# Scripted sessions

A session whose answers are fixed beforehand, and that remembers everything it was asked.
-/

namespace EnginePipe

/-- What a scripted session is going to answer, and what it was asked. -/
structure SessionScript where
  /-- The outcome of each evaluation, in order; null behind the last. -/
  replies : List (Except Error Json.Value)
  /-- The outcome of closing. -/
  closing : Except Error Unit := .ok ()
  /-- The source texts that were evaluated, in order. -/
  sent : List String := []
  /-- How often the session was closed. -/
  closes : Nat := 0

/-- A session that follows a script. -/
structure ScriptedSession where
  id : ContextId
deriving DecidableEq, Repr

namespace ScriptedSession

/-- Takes the next reply. -/
def evaluate (source : String) : Attempt SessionScript Json.Value := fun script =>
  ((script.replies.head?).getD (.ok .null),
    { script with replies := script.replies.tail, sent := script.sent ++ [source] })

/-- Counts a close. -/
def close : Attempt SessionScript Unit := fun script =>
  (script.closing, { script with closes := script.closes + 1 })

instance : Session ScriptedSession SessionScript where
  id := id
  evaluate _ := evaluate
  close _ := close

end ScriptedSession

end EnginePipe
