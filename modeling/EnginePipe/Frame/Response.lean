import EnginePipe.Json.Printer
import EnginePipe.Json.Reader
import EnginePipe.Text.Blank

/-!
# Responses and replies

What an engine answers: one line with an array of a status and a value.  The status `"ok"` means
that the value is the result; with any other status the value is what went wrong.

`Response.classify` turns a response into a **reply**.  A failure message in which the engine's
marker occurs is a syntax error, any other a program error.  `Reply.ofLine` does this for one read
from the engine, which may have found nothing.
-/

namespace EnginePipe

/-- A message from an engine to the host. -/
structure Response where
  /-- The status, unless the first item of the array is missing or no string. -/
  status : Option String
  value : Json.Value
deriving Repr, BEq

namespace Response

/-- The status of a success. -/
def okStatus : String := "ok"

/-- The status that a failure is given. -/
def errStatus : String := "err"

/-- The response to a source text that had a value. -/
def ok (value : Json.Value) : Response := ⟨some okStatus, value⟩

/-- The response to a source text that failed. -/
def err (message : String) : Response := ⟨some errStatus, .string message⟩

/-- A response as a value. -/
def toValue (r : Response) : Json.Value :=
  match r.status with
  | some status => .array [.string status, r.value]
  | none => .array []

/-- The text of a response, one line without its end. -/
def encode (r : Response) : String := r.toValue.compact

/-- The response that the items of an array are.  A missing value is null, and what stands behind
the value does not count. -/
def ofItems : List Json.Value → Response
  | .string status :: value :: _ => ⟨some status, value⟩
  | _ :: value :: _ => ⟨none, value⟩
  | [.string status] => ⟨some status, .null⟩
  | _ => ⟨none, .null⟩

/-- The response on a line; nothing on a blank line. -/
def decode (line : String) : Except Json.Fault (Option Response) :=
  let text := Text.trim line.toList
  if text.isEmpty then .ok none
  else
    match Json.readArray? (String.ofList text) with
    | some items => .ok (some (ofItems items))
    | none => .error (.ofArray (String.ofList text))

theorem ofItems_ok (value : Json.Value) : ofItems [.string okStatus, value] = ok value := rfl

end Response

/-- What one request came to. -/
inductive Reply where
  /-- The source had a value. -/
  | value (v : Json.Value)
  /-- The engine could not read the source; its message. -/
  | syntaxError (message : String)
  /-- The source failed while it ran; the engine's message. -/
  | programError (message : String)
  /-- The engine did not answer. -/
  | absent
deriving Repr, BEq

namespace Response

/-- The message of a failure: a string bare, nothing for null, any other value as its text. -/
def message : Json.Value → String
  | .string text => text
  | .null => ""
  | v => v.compact

/-- Whether a message is about syntax: the marker is not empty and occurs in it. -/
def marks (marker message : String) : Bool :=
  !marker.isEmpty && Text.occursIn marker.toList message.toList

/-- The reply that a response is, for an engine whose syntax errors carry `marker`. -/
def classify (r : Response) (marker : String) : Reply :=
  if r.status = some okStatus then .value r.value
  else if marks marker (message r.value) then .syntaxError (message r.value)
  else .programError (message r.value)

@[simp] theorem classify_ok (value : Json.Value) (marker : String) :
    (ok value).classify marker = .value value := rfl

theorem classify_err (text marker : String) :
    (err text).classify marker =
      if marks marker text then .syntaxError text else .programError text := by
  rw [classify, if_neg (by simp [err, errStatus, okStatus])]
  rfl

end Response

/-- The reply in one read from an engine; `none` is the end of its output. -/
def Reply.ofLine (line : Option String) (marker : String) : Except Json.Fault Reply :=
  match line with
  | none => .ok .absent
  | some line =>
    (Response.decode line).map fun
      | none => .absent
      | some response => response.classify marker

end EnginePipe
