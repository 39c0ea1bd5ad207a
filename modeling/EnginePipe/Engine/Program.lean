import EnginePipe.Engine.Rules
import EnginePipe.Engine.Toy

/-!
# Programs

The programs that a host can start: engines that follow rules, each a program of its own, and toy
engines, which live inside the host.
-/

namespace EnginePipe.Engine

/-- What a rule engine does on a line. -/
def RuleAction.reaction : RuleAction → Reaction
  | .answer line => { answers := [line] }
  | .silence => { answers := [] }
  | .exit => { answers := [], exits := true }
  | .answerAndExit line => { answers := [line], exits := true }

/-- A program that answers requests. -/
inductive Program where
  | toy (t : Toy)
  | rules (rulebook : Rulebook)

namespace Program

/-- Reacts to a line. -/
def react [Build] (line : String) : Program → Reaction × Program
  | toy t =>
    let (reaction, t) := t.react line
    (reaction, toy t)
  | rules rulebook => ((rulebook.action line).reaction, rules rulebook)

instance [Build] : LineProgram Program where
  react := react
  isSupervised
    | toy _ => false
    | rules _ => true
  heard
    | toy t => t.heard
    | rules _ => []

end Program

end EnginePipe.Engine
