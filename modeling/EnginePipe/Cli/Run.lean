import EnginePipe.Bridge.Builtin
import EnginePipe.Cli.Arguments

/-!
# Running commands

A command line that was read is carried out on a desk: a source text is evaluated, a function called, or
the runtimes listed, each with runtimes that are made anew.  Standard input is read first, and where that
fails nothing else is done.  Whatever comes of the rest, the engines that these runtimes keep running are
ended before the command returns.

* `readSource_eq_ok_iff`, `readPreamble_eq_ok_iff`: which texts are evaluated.
* `dispatch`, `runOn`: a command on a desk, with any runtimes.
* `run`: a command with the built-in ones.
* `stdout_of_failure`: in JSON form a failure adds one object with its code and message.
* `exitCode_runOn`: the exit code is 0 exactly if the command succeeded.
-/

namespace EnginePipe.Cli

open Bridge (Desk Entry Registration Registry Runtime RuntimeId Selector)
open Channel (Peer)
open Launch (Station World)

/-- What a command prints, and how it ends. -/
structure Report where
  stdout : String
  stderr : String
  exitCode : Nat
deriving DecidableEq, Repr

/-- What a command has printed while it was carried out, and whether it succeeded. -/
structure Printout where
  stdout : String := ""
  result : Except Failure Unit := .ok ()

/-- A command that fails without having printed anything. -/
def Printout.failed (f : Failure) : Printout := { result := .error f }

/-! ### Reading what is needed -/

/-- The source text that stands for standard input. -/
def stdinMark : String := "-"

/-- The source text of a command: the one given, or else what stands on standard input. -/
def readSource (stdin : List UInt8) (source : Option String) : Except Failure String :=
  match source.filter (· ≠ stdinMark) with
  | some text => .ok text
  | none =>
    match Text.ofBytes? stdin with
    | some text => .ok text
    | none => .error ⟨["failed to read source from stdin"], .other Text.invalidText⟩

/-- A given text is passed on as it is, unless it is the mark; else what stands on standard input is, whole. -/
theorem readSource_eq_ok_iff {stdin : List UInt8} {source : Option String} {text : String} :
    readSource stdin source = .ok text ↔
      (source = some text ∧ text ≠ stdinMark) ∨
        ((source = none ∨ source = some stdinMark) ∧ Text.ofBytes? stdin = some text) := by
  have hinput : readSource stdin none = .ok text ↔ Text.ofBytes? stdin = some text := by
    rw [readSource, Option.filter_none]
    cases Text.ofBytes? stdin <;> simp
  cases source with
  | none => simp [hinput]
  | some given =>
    by_cases hmark : given = stdinMark
    · have hnone : readSource stdin (some given) = readSource stdin none := by
        rw [readSource, Option.filter_some_neg (by simp [hmark]), readSource, Option.filter_none]
      rw [hnone, hinput, hmark]
      constructor
      · exact fun h => .inr ⟨.inr rfl, h⟩
      · rintro (⟨heq, hne⟩ | ⟨-, h⟩)
        · exact absurd (Option.some.inj heq).symm hne
        · exact h
    · have hgiven : readSource stdin (some given) = .ok given := by
        rw [readSource, Option.filter_some_pos (by simp [hmark])]
      rw [hgiven]
      constructor
      · intro h
        cases h
        exact .inl ⟨rfl, hmark⟩
      · rintro (⟨heq, -⟩ | ⟨hnot | hstands, -⟩)
        · exact congrArg Except.ok (Option.some.inj heq)
        · cases hnot
        · exact absurd (Option.some.inj hstands) hmark

/-- The script that is evaluated before: nothing, or what stands in a file. -/
def readPreamble (host : Host) (path : Option String) : Except Failure String :=
  match path with
  | none => .ok ""
  | some path =>
    match host.readText path with
    | .ok text => .ok text
    | .error reason => .error ⟨["failed to read preamble " ++ path], .other reason⟩

/-- What is evaluated before is nothing where no file is named, and else what stands in the file, whole. -/
theorem readPreamble_eq_ok_iff {host : Host} {path : Option String} {text : String} :
    readPreamble host path = .ok text ↔
      (path = none ∧ text = "") ∨ ∃ file, path = some file ∧ host.readText file = .ok text := by
  cases path with
  | none => simp [readPreamble, eq_comm]
  | some file =>
    cases hread : host.readText file <;> simp [readPreamble, hread]

/-- The value of an argument. -/
def readArgument [Build] (argument : String) : Except Failure Json.Value :=
  match Json.read? argument with
  | some v => .ok v
  | none =>
    .error ⟨["argument is not JSON: " ++ argument], .other (Json.Fault.of argument).message⟩

/-! ### Evaluation -/

variable [Build] {π : Type} [Peer π]

/-- Does something in a context of the chosen runtime; gives the runtime's name and the value. -/
def evaluateIn (selector : Selector RuntimeId) (preamble : String)
    (op : Context PipeSession → Attempt (World Host π) Json.Value) :
    Attempt (Desk Host π) (String × Json.Value) := do
  let id ← selector.select []
  let value ← Desk.act id (Runtime.withContext preamble (Context.lift op))
  let d ← Attempt.get
  pure (d.nameOf id, value)

/-- Does something in a context of the chosen runtime, and prints the value. -/
def evaluate (selector : Selector RuntimeId) (format : Format) (preamble : Option String)
    (op : Context PipeSession → Attempt (World Host π) Json.Value) (d : Desk Host π) :
    Printout × Desk Host π :=
  match readPreamble d.world.host preamble with
  | .error f => (.failed f, d)
  | .ok preamble =>
    match evaluateIn selector preamble op d with
    | (.error e, d) => (.failed (.ofError e), d)
    | (.ok (runtime, value), d) => ({ stdout := renderValue format runtime value ++ "\n" }, d)

/-! ### Listing runtimes -/

/-- What is listed about a runtime. -/
structure Listing where
  name : String
  displayName : String
  isAvailable : Bool
  isDeprecated : Bool
  isSelected : Bool

/-- What is listed about the runtimes of a registry. -/
def listings (selected : Option RuntimeId) :
    List (Entry RuntimeId) → Desk Host π → List Listing × Desk Host π
  | [], d => ([], d)
  | e :: entries, d =>
    let (isAvailable, d) := d.isAvailable e.runtime
    let listing : Listing :=
      { name := e.name
        displayName := d.nameOf e.runtime
        isAvailable
        isDeprecated := Bridge.Candidates.isDeprecated d e.runtime
        isSelected := selected = some e.runtime }
    let (rest, d) := listings selected entries d
    (listing :: rest, d)

/-- A text with blanks behind it, up to a width. -/
def padded (width : Nat) (s : String) : String :=
  s ++ String.ofList (List.replicate (width - s.length) ' ')

/-- The width of the column with the names shown to people. -/
def displayWidth : Nat := 28

namespace Listing

/-- Whether a runtime can be used, in words. -/
def status (l : Listing) : String :=
  if l.isAvailable then if l.isDeprecated then "available (deprecated)" else "available"
  else "unavailable"

/-- One line about a runtime. -/
def line (width : Nat) (l : Listing) : String :=
  (if l.isSelected then "*" else " ") ++ " " ++ padded width l.name ++ "  " ++
    padded displayWidth l.displayName ++ " " ++ l.status ++ "\n"

/-- One object about a runtime. -/
def toValue (l : Listing) : Json.Value :=
  .object [("name", .string l.name), ("display_name", .string l.displayName),
    ("available", .bool l.isAvailable), ("deprecated", .bool l.isDeprecated),
    ("selected", .bool l.isSelected)]

end Listing

/-- What is printed about runtimes. -/
def renderListings (format : Format) (ls : List Listing) : String :=
  match format with
  | .json => (Json.Value.array (ls.map Listing.toValue)).pretty ++ "\n"
  | .text =>
    let width := (ls.map fun l => l.name.utf8ByteSize).foldl max 0
    String.join (ls.map (Listing.line width))

/-- Prints which runtimes there are. -/
def listRuntimes (selector : Selector RuntimeId) (format : Format) (d : Desk Host π) :
    Printout × Desk Host π :=
  let (selected, d) := selector.select [] d
  let (ls, d) := listings selected.toOption selector.registry.entries d
  ({ stdout := renderListings format ls }, d)

/-! ### Commands -/

/-- What is left of a command when standard input was read. -/
inductive Task where
  | eval (preamble : Option String) (source : String)
  | exec (preamble : Option String) (source : String)
  | call (arguments : CallArguments)
  | runtimes
deriving DecidableEq, Repr

/-- The task of a command; reads standard input if the source text stands there. -/
def Command.task (stdin : List UInt8) : Command → Except Failure Task
  | eval arguments => (readSource stdin arguments.source).map (.eval arguments.preamble)
  | exec arguments => (readSource stdin arguments.source).map (.exec arguments.preamble)
  | call arguments => .ok (.call arguments)
  | runtimes => .ok .runtimes

/-- Carries out a task. -/
def Task.perform (selector : Selector RuntimeId) (format : Format) (task : Task) (d : Desk Host π) :
    Printout × Desk Host π :=
  match task with
  | .eval preamble source => evaluate selector format preamble (fun c => c.eval source) d
  | .exec preamble source => evaluate selector format preamble (fun c => c.exec source) d
  | .call arguments =>
    match arguments.arguments.mapM readArgument with
    | .error f => (.failed f, d)
    | .ok values =>
      evaluate selector format arguments.preamble (fun c => c.call arguments.function values) d
  | .runtimes => listRuntimes selector format d

/-- What chooses the runtime of an invocation: the name that it gives, or else that of the environment. -/
def Invocation.selector (invocation : Invocation) (registry : Registry RuntimeId) (host : Host) :
    Selector RuntimeId :=
  ⟨registry, invocation.runtime <|> Bridge.environmentOverride host⟩

/-- Carries out an invocation with new runtimes, and ends their engines. -/
def dispatch (registrations : List (Registration Host π)) (stdin : List UInt8) (invocation : Invocation)
    (d : Desk Host π) : Printout × Desk Host π :=
  let (registry, d) := d.table registrations
  let selector := invocation.selector registry d.world.host
  match invocation.command.task stdin with
  | .error f => (.failed f, d)
  | .ok task =>
    let (printout, d) := task.perform selector invocation.format d
    (printout, d.shutdownAll registry)

/-- What a failure puts on standard output. -/
def errorOutput (format : Format) (f : Failure) : String :=
  match format with
  | .text => ""
  | .json => (failureReport f).pretty ++ "\n"

/-- What has been printed when a command has ended; a failure is put behind what was there before. -/
def Report.of (format : Format) (printout : Printout) : Report :=
  match printout.result with
  | .ok () => ⟨printout.stdout, "", 0⟩
  | .error f =>
    { stdout := printout.stdout ++ errorOutput format f
      stderr := "error: " ++ f.message ++ "\n"
      exitCode := 1 }

/-- Runs an invocation with new runtimes. -/
def runOn (registrations : List (Registration Host π)) (stdin : List UInt8) (invocation : Invocation)
    (d : Desk Host π) : Report × Desk Host π :=
  let (printout, d) := dispatch registrations stdin invocation d
  (Report.of invocation.format printout, d)

/-- Runs an invocation with the built-in runtimes. -/
def run (fallbackSupport : String) (stdin : List UInt8) (invocation : Invocation) (d : Desk Host Station) :
    Report × Desk Host Station :=
  runOn (Bridge.Builtin.registrations (Bridge.supportDir fallbackSupport d.world.host)) stdin invocation d

theorem stdout_of_failure {printout : Printout} {f : Failure} (h : printout.result = .error f) :
    (Report.of .json printout).stdout = printout.stdout ++ ((failureReport f).pretty ++ "\n") := by
  rw [Report.of, h]
  rfl

theorem exitCode_runOn (registrations : List (Registration Host π)) (stdin : List UInt8)
    (invocation : Invocation) (d : Desk Host π) :
    (runOn registrations stdin invocation d).1.exitCode = 0 ↔
      (dispatch registrations stdin invocation d).1.result = .ok () := by
  simp only [runOn, Report.of]
  split
  · next h => simp [h]
  · next h => simp [h]

/-- The build of the program itself. -/
instance (priority := low) build : Build := .plain

end EnginePipe.Cli
