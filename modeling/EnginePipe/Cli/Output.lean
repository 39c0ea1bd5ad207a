import EnginePipe.Error
import EnginePipe.Json.Printer

/-!
# Output of commands

A result is shown as text, or as one JSON object that also says whether the command succeeded.

A **failure** is a cause and what was being tried, outermost first.  Its code comes from the cause
alone, so it does not depend on how many notes stand before it (`code_within`).
-/

namespace EnginePipe.Cli

/-- The forms of output. -/
inductive Format where
  | text
  | json
deriving DecidableEq, Repr

/-- The format that a name stands for. -/
def Format.ofName? : String → Option Format
  | "text" => some .text
  | "json" => some .json
  | _ => none

/-- The name of a format. -/
def Format.name : Format → String
  | .text => "text"
  | .json => "json"

theorem Format.ofName?_name (format : Format) : ofName? format.name = some format := by
  cases format <;> rfl

/-- What lies at the root of a failure. -/
inductive Cause where
  /-- An error between host and engine. -/
  | bridge (e : Error)
  /-- Anything else, in words. -/
  | other (text : String)
deriving DecidableEq, Repr

/-- A command that did not succeed. -/
structure Failure where
  /-- What was being tried, outermost first. -/
  contexts : List String := []
  cause : Cause
deriving DecidableEq, Repr

namespace Failure

/-- Notes what was being tried. -/
def within (context : String) (f : Failure) : Failure := { f with contexts := context :: f.contexts }

/-- The code of a failure that no error between host and engine caused. -/
def generalCode : String := "failed"

/-- A word for the kind of a failure that programs can rely on. -/
def code (f : Failure) : String :=
  match f.cause with
  | .bridge e => e.code
  | .other _ => generalCode

/-- What a failure says: what was tried, then the cause and what lies behind it. -/
def message [Build] (f : Failure) : String :=
  ": ".intercalate (f.contexts ++ match f.cause with
    | .bridge e => e.chain
    | .other text => [text])

@[simp] theorem code_within (context : String) (f : Failure) : (f.within context).code = f.code := rfl

end Failure

/-- The failure that an error is. -/
def Failure.ofError (e : Error) : Failure := { cause := .bridge e }

/-! ### Rendering -/

/-- A value as text: a string bare, any other value as JSON. -/
def renderText : Json.Value → String
  | .string text => text
  | v => v.compact

/-- The object that reports a value. -/
def successReport (runtime : String) (value : Json.Value) : Json.Value :=
  .object [("ok", .bool true), ("runtime", .string runtime), ("value", value)]

/-- The object that reports a failure. -/
def failureReport [Build] (f : Failure) : Json.Value :=
  .object [("ok", .bool false),
    ("error", .object [("code", .string f.code), ("message", .string f.message)])]

/-- What a successful command prints. -/
def renderValue (format : Format) (runtime : String) (value : Json.Value) : String :=
  match format with
  | .text => renderText value
  | .json => (successReport runtime value).pretty

end EnginePipe.Cli
