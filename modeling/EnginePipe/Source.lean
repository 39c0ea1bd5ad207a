import EnginePipe.Json.Printer
import EnginePipe.Text.Blank

/-!
# Source texts

How callers wrap what they want evaluated.  An expression is sent so that its value comes back as the
text of an array with that value; a function body becomes a function that is called at once; a call
applies a function to arguments written in JSON.

* `trimmed_of_blank`: what is blank has no expression in it.
-/

namespace EnginePipe.Source

/-- The start of a source text whose value is wanted as JSON text. -/
def jsonOpen : String := "JSON.stringify(["

/-- The end of a source text whose value is wanted as JSON text. -/
def jsonClose : String := "])"

/-- The start of a function that is called at once. -/
def functionOpen : String := "(function()\x7b"

/-- The end of a function that is called at once. -/
def functionClose : String := "\x7d)()"

/-- What stands between a function and its arguments. -/
def applyOpen : String := ".apply(this, "

/-- What stands behind the arguments of a function. -/
def applyClose : String := ")"

/-- An expression without blanks around it and without semicolons behind it. -/
def trimmed (source : String) : String :=
  String.ofList (Text.dropWhileEnd (· = ';') (Text.trim source.toList))

/-- Whether there is no expression in a text. -/
def isBlank (source : String) : Bool := (Text.trim source.toList).isEmpty

/-- A source text whose value is the JSON text of an array with the value of an expression. -/
def asJson (expression : String) : String := jsonOpen ++ expression ++ jsonClose

/-- An expression whose value is what a function body returns. -/
def asFunction (body : String) : String := functionOpen ++ body ++ functionClose

/-- An expression whose value is what a function gives for some arguments. -/
def applied (path : String) (arguments : List Json.Value) : String :=
  path ++ applyOpen ++ (Json.Value.array arguments).compact ++ applyClose

theorem trimmed_of_blank {source : String} (h : isBlank source) : trimmed source = "" := by
  have ht : Text.trim source.toList = [] := by simpa [isBlank] using h
  rw [trimmed, ht]
  rfl

end EnginePipe.Source
