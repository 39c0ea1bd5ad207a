import EnginePipe.Json.Reader

/-!
# Builds

Two things that a source text leaves open are settled when the program is built: in which words the JSON
reader says what is wrong with a text, and what becomes of a sum of machine integers that no machine
integer holds.  Definitions that depend on either take the build as an instance, and what is shown of them
holds for every build.
-/

namespace EnginePipe

/-- What is settled when the program is built. -/
class Build where
  /-- What the JSON reader says of a text that it cannot read. -/
  explain : Json.Fault → String
  /-- Whether sums are checked.  Then one that no machine integer holds ends the thread that adds it up;
  else it wraps around. -/
  checksSums : Bool

/-- What a fault says. -/
def Json.Fault.message [Build] (fault : Json.Fault) : String := Build.explain fault

/-- Says of a text that cannot be read where it ends. -/
def Json.Fault.ending (fault : Json.Fault) : String :=
  let cs := fault.text.toList
  "unreadable JSON, ending at line " ++ toString (cs.count '\n' + 1) ++
    " column " ++ toString (cs.reverse.takeWhile (· ≠ '\n')).length

/-- A build whose JSON reader says where a text ends, and whose sums wrap around. -/
@[reducible] def Build.plain : Build where
  explain := Json.Fault.ending
  checksSums := false

end EnginePipe
