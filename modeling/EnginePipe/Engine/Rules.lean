import EnginePipe.Text.Blank

/-!
# Rule engines

The simplest program that answers requests: it takes no account of what a line means, but looks for
a text in it.  The first rule whose text occurs in the line says what to do.
-/

namespace EnginePipe.Engine

/-- What a rule engine does with a line. -/
inductive RuleAction where
  /-- Answers a line. -/
  | answer (line : String)
  /-- Does not answer. -/
  | silence
  /-- Exits without an answer. -/
  | exit
  /-- Answers a line and exits. -/
  | answerAndExit (line : String)
deriving DecidableEq, Repr

/-- A text to look for in a line, and what to do if it is there. -/
structure Rule where
  needle : String
  action : RuleAction
deriving DecidableEq, Repr

/-- The rules of an engine, in order. -/
abbrev Rulebook : Type := List Rule

/-- What an engine does with a line for which it has no rule: the value is null. -/
def defaultAction : RuleAction := .answer "[\"ok\",null]"

/-- What a rulebook says about a line. -/
def Rulebook.action (rules : Rulebook) (line : String) : RuleAction :=
  match rules.find? (fun rule => Text.occursIn rule.needle.toList line.toList) with
  | some rule => rule.action
  | none => defaultAction

end EnginePipe.Engine
