import EnginePipe.Launch.Locate

/-!
# Commands

A candidate command is a program name and arguments with blanks between them.  Resolving a list of
candidates takes the first whose program is located; its arguments stay as they are.

* `resolve_eq_of_locate`: the first candidate decides when its program is found.
-/

namespace EnginePipe.Launch

/-- A program that was located, and arguments for it. -/
structure Command where
  program : String
  arguments : List String
deriving DecidableEq, Repr

namespace Command

/-- How a command is shown. -/
def display (c : Command) : String := " ".intercalate (c.program :: c.arguments)

/-- The arguments with which a command runs a bootstrap program. -/
def argumentsFor (c : Command) (bootstrap : String) : List String := c.arguments ++ [bootstrap]

/-- All words with which a command runs a bootstrap program. -/
def words (c : Command) (bootstrap : String) : List String := c.program :: c.argumentsFor bootstrap

/-- What stands for a word that the system cannot be given. -/
def unpassableWord : String := "<string-with-nul>"

/-- The words of a command as the system is given them. -/
def passedWords (c : Command) (bootstrap : String) : List String :=
  (c.words bootstrap).map fun word => if Host.isPassable word then word else unpassableWord

end Command

/-- The words of a candidate. -/
def candidateWords (candidate : String) : List String :=
  (Text.words candidate.toList).map String.ofList

/-- The first candidate whose program is located.  A blank candidate is passed over, and nothing is
located behind the one that is taken. -/
def resolve {ω : Type} (locator : Locator ω) : List String → ω → Option Command × ω
  | [], w => (none, w)
  | candidate :: candidates, w =>
    match candidateWords candidate with
    | [] => resolve locator candidates w
    | program :: arguments =>
      match locator program w with
      | (some path, w) => (some ⟨path, arguments⟩, w)
      | (none, w) => resolve locator candidates w

theorem resolve_eq_of_locate {ω : Type} {locator : Locator ω} {candidate program path : String}
    {arguments : List String} {w w' : ω} (candidates : List String)
    (hw : candidateWords candidate = program :: arguments)
    (hl : locator program w = (some path, w')) :
    resolve locator (candidate :: candidates) w = (some ⟨path, arguments⟩, w') := by
  simp [resolve, hw, hl]

end EnginePipe.Launch
