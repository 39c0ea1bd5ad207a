import EnginePipe.Engine.Rules

/-!
# The scripts of rule engines

A rule engine stands on disk as a script for the system's shell: it leaves its arguments in a file beside
itself, then reads lines and goes through the rules for each.  Texts are quoted for the shell, so they
stand in the script as they are, but for the mark that quotes them.

* `script_ne_empty`: a script is never empty.
-/

namespace EnginePipe.Engine

/-- The path of the system's shell. -/
def shellPath : String := "/bin/sh"

/-- Where a rule engine leaves the arguments it was started with. -/
def argumentsFile : String := "argv"

/-- A text as the shell reads it back. -/
def shellQuoted (s : String) : String :=
  let quoted := s.toList.flatMap fun c => if c = '\'' then ['\'', '\\', '\'', '\''] else [c]
  String.ofList ('\'' :: quoted ++ ['\''])

/-- The command that prints a line. -/
def printCommand (line : String) : String := "printf '%s\\n' " ++ shellQuoted line

/-- The commands of a rule. -/
def RuleAction.commands : RuleAction → String
  | answer line => printCommand line
  | silence => ":"
  | exit => "exit 0"
  | answerAndExit line => printCommand line ++ "; exit 0"

/-- The clause of a rule. -/
def Rule.clause (rule : Rule) : String :=
  "    *" ++ shellQuoted rule.needle ++ "*) " ++ rule.action.commands ++ " ;;\n"

/-- The lines of a script before its rules. -/
def scriptOpen : String :=
  "#!" ++ shellPath ++ "\n" ++
  "case \"$0\" in */*) dir=$\x7b0%/*\x7d ;; *) dir=. ;; esac\n" ++
  "printf '%s\\n' \"$@\" > \"$dir/" ++ argumentsFile ++ "\"\n" ++
  "echo started >&2\n" ++
  "while IFS= read -r line; do\n" ++
  "  case \"$line\" in\n"

/-- The lines of a script behind its rules. -/
def scriptClose : String :=
  "    *) " ++ defaultAction.commands ++ " ;;\n" ++
  "  esac\n" ++
  "done\n"

/-- The script of a rule engine. -/
def Rulebook.script (rules : Rulebook) : String :=
  scriptOpen ++ String.join (rules.map Rule.clause) ++ scriptClose

theorem Rulebook.script_ne_empty (rules : Rulebook) : rules.script ≠ "" := by
  simp [Rulebook.script, scriptOpen]

/-- The rules of a program that ends without an answer. -/
def Rulebook.mute : Rulebook := [⟨"", .exit⟩]

theorem Rulebook.action_mute (line : String) : Rulebook.mute.action line = .exit := by
  have h : Text.occursIn [] line.toList = true := Text.occursIn_iff.2 (List.nil_infix)
  simp [Rulebook.action, Rulebook.mute, h]

end EnginePipe.Engine
