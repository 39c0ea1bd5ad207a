import EnginePipe.Build
import EnginePipe.Frame.Request

/-!
# Errors

Every failure is a cause.  `Error.message` words it, and `Error.chain` puts the messages of what lies
behind it after its own.

An error is **fatal** when it ends the usefulness of a runtime or a process, **recoverable** when it
is about the evaluated source; some are neither.  Exactly the recoverable ones carry a message of the
engine (`isSome_engineMessage?_iff`).
-/

namespace EnginePipe

/-- How the exchange with an engine went out of step. -/
inductive Desync where
  /-- The process was dead before the exchange. -/
  | notRunning (runtime : String)
  | inputClosed
  | outputClosed
  | writeFailed (reason : String)
  | readFailed (reason : String)
  /-- A frame that cannot be cut into slices. -/
  | uncuttable
  | noResponse (runtime : String) (context : ContextId)
  | noTeardownResponse (runtime : String) (context : ContextId)
  | malformedResponse (runtime : String) (fault : Json.Fault)
  /-- Anything else that a launcher or session reports. -/
  | other (detail : String)
deriving DecidableEq, Repr

/-- What went wrong, in one sentence. -/
def Desync.message [Build] : Desync → String
  | notRunning runtime => runtime ++ " process is not running"
  | inputClosed => "engine input is closed"
  | outputClosed => "engine output is closed"
  | writeFailed reason => "failed to write request: " ++ reason
  | readFailed reason => "failed to read response: " ++ reason
  | uncuttable => "request cannot be cut into slices"
  | noResponse runtime id =>
    "no response from " ++ runtime ++ " for context " ++ toString id.toNat
  | noTeardownResponse runtime id =>
    "no teardown response from " ++ runtime ++ " for context " ++ toString id.toNat
  | malformedResponse runtime fault =>
    "malformed response from " ++ runtime ++ ": " ++ fault.message
  | other detail => detail

/-- What can go wrong between a caller and an engine. -/
inductive Error where
  /-- No runtime can be used. -/
  | unavailable (message : String)
  /-- A runtime was asked for by a name that is not registered. -/
  | notDefined (name : String)
  /-- An engine was found but could not be started. -/
  | spawnFailed (runtime reason : String)
  /-- The engine's streams cannot be trusted any more. -/
  | desync (cause : Desync)
  /-- The engine could not read the source; its message. -/
  | syntaxError (message : String)
  /-- The source failed while it ran; the engine's message. -/
  | programError (message : String)
  /-- The runtime refuses to evaluate anything. -/
  | disabled
  | contextClosed (context : ContextId)
  | io (reason : String)
  | json (fault : Json.Fault)
deriving DecidableEq, Repr

namespace Error

/-- The error of a runtime that cannot be used on this host. -/
def runtimeUnavailable (name : String) : Error :=
  .unavailable (name ++ " runtime is not available on this system")

/-- The error of a search that found no runtime. -/
def noRuntimeFound : Error :=
  .unavailable ("Could not find a JavaScript runtime. Install Node.js or set JSBRIDGE_RUNTIME " ++
    "to one of the registered runtimes.")

/-- What an error says. -/
def message [Build] : Error → String
  | unavailable text => text
  | notDefined name => name ++ " runtime is not defined"
  | spawnFailed runtime reason => "Failed to launch " ++ runtime ++ ": " ++ reason
  | desync cause => "Protocol error: " ++ cause.message
  | syntaxError text => text
  | programError text => text
  | disabled => "Script evaluation is disabled"
  | contextClosed id => "Context " ++ toString id.toNat ++ " is closed"
  | io reason => "I/O error: " ++ reason
  | json fault => "JSON error: " ++ fault.message

/-- What an error says, followed by what its source says, if it has one. -/
def chain [Build] : Error → List String
  | io reason => [(io reason).message, reason]
  | json fault => [(json fault).message, fault.message]
  | e => [e.message]

/-- Whether a runtime or process is of no use after this error. -/
def isFatal : Error → Bool
  | unavailable _ | notDefined _ | spawnFailed _ _ | desync _ | io _ => true
  | _ => false

/-- Whether the error is about the evaluated source. -/
def isRecoverable : Error → Bool
  | syntaxError _ | programError _ => true
  | _ => false

/-- The engine's own words. -/
def engineMessage? : Error → Option String
  | syntaxError text | programError text => some text
  | _ => none

theorem isSome_engineMessage?_iff (e : Error) : e.engineMessage?.isSome ↔ e.isRecoverable := by
  cases e <;> simp [engineMessage?, isRecoverable]

theorem not_isFatal_of_isRecoverable {e : Error} (h : e.isRecoverable) : e.isFatal = false := by
  cases e <;> simp_all [isRecoverable, isFatal]

/-- A word for the kind of an error that programs can rely on. -/
def code : Error → String
  | unavailable _ => "unavailable"
  | notDefined _ => "not_defined"
  | spawnFailed _ _ => "spawn_failed"
  | desync _ => "protocol_error"
  | syntaxError _ => "syntax_error"
  | programError _ => "program_error"
  | disabled => "disabled"
  | contextClosed _ => "context_closed"
  | io _ => "io_error"
  | json _ => "json_error"

end Error

end EnginePipe
