import EnginePipe.Cli.Output

/-!
# Arguments of the command line

A command line has two levels.  The outer one takes options up to the name of a command; what follows
belongs to the command, which takes the common options again, options of its own, and words.

An option may carry its value (`--format=json`, `-fjson`) or take the argument behind it.  In the
second case it is **pending**: whether it has a value, and whether the value is one it accepts, is
decided when the next option or word starts, or at the end.  So of two faults in one command line the
one that is decided first is reported.

* `Grammar.scan`: reads one level.
* `Invocation.ofArguments`: reads a command line.
-/

namespace EnginePipe.Cli

/-- Why a command line is not run. -/
inductive Refusal where
  /-- It asks for help. -/
  | help
  /-- It asks for the version. -/
  | version
  /-- It is empty. -/
  | nothingGiven
  | missingCommand
  | unknownCommand
  /-- An option, or a word too many. -/
  | unknownArgument
  /-- A value that an option does not accept, or none where it needs one. -/
  | invalidValue
  /-- A value for an option that takes none. -/
  | needlessValue
  | repeatedOption
  | missingWord
deriving DecidableEq, Repr

/-- The exit code of a command line that is not run. -/
def Refusal.exitCode : Refusal → Nat
  | .help | .version => 0
  | _ => 2

/-- The options. -/
inductive OptionKey where
  | help
  | version
  /-- Each occurrence counts. -/
  | verbose
  | format
  | runtime
  | preamble
deriving DecidableEq, Repr

namespace OptionKey

/-- Whether an option needs a value. -/
def takesValue : OptionKey → Bool
  | help | version | verbose => false
  | format | runtime | preamble => true

/-- Whether an option accepts a value. -/
def accepts : OptionKey → String → Bool
  | format, value => (Format.ofName? value).isSome
  | preamble, value => !value.isEmpty
  | _, _ => true

end OptionKey

/-- How an option is written, and which it is. -/
structure OptionName where
  short : Char
  long : String
  key : OptionKey

/-- What one level of a command line takes. -/
structure Grammar where
  options : List OptionName
  /-- The commands that end the level. -/
  commands : List String := []
  minWords : Nat := 0
  /-- No bound if absent. -/
  maxWords : Option Nat := some 0
  /-- How many words stand before those that may be negative numbers. -/
  numbersFrom : Option Nat := none

/-- What was read of one level. -/
structure Scan where
  /-- How often the counted option was given, unless it was not. -/
  verbosity : Option Nat := none
  values : List (OptionKey × String) := []
  words : List String := []
  /-- An option that is not settled, and its value if that was read. -/
  pending : Option (OptionKey × Option String) := none

namespace Scan

/-- Nothing read. -/
def empty : Scan := { }

/-- Whether the next argument is an option's value. -/
def awaitsValue (s : Scan) : Bool := s.pending.any (fun p => p.2.isNone)

/-- Takes an option with its value. -/
def record (s : Scan) (key : OptionKey) (value : String) : Except Refusal Scan :=
  if (s.values.lookup key).isSome then .error .repeatedOption
  else if key.accepts value then .ok { s with values := s.values ++ [(key, value)] }
  else .error .invalidValue

/-- Decides about the pending option. -/
def settle (s : Scan) : Except Refusal Scan :=
  match s.pending with
  | none => .ok s
  | some (_, none) => .error .invalidValue
  | some (key, some value) => record { s with pending := none } key value

/-- The greatest count. -/
def maxVerbosity : Nat := 255

/-- Takes an option without a value. -/
def takeFlag (s : Scan) (key : OptionKey) : Except Refusal Scan := do
  let s ← s.settle
  match key with
  | .help => .error .help
  | .version => .error .version
  | _ => .ok { s with verbosity := some (min (s.verbosity.getD 0 + 1) maxVerbosity) }

/-- Takes an option whose value, if it has one, is still to come. -/
def takeOption (s : Scan) (key : OptionKey) : Except Refusal Scan := do
  let s ← s.settle
  .ok { s with pending := some (key, none) }

/-- Takes an option that carries its value. -/
def takeAttached (s : Scan) (key : OptionKey) (value : List Char) : Except Refusal Scan := do
  (← s.settle).record key (String.ofList value)

/-- Takes a word. -/
def takeWord (s : Scan) (word : String) : Except Refusal Scan := do
  let s ← s.settle
  .ok { s with words := s.words ++ [word] }

/-- Takes the value that is awaited. -/
def takeValue (s : Scan) (value : String) : Scan :=
  { s with pending := s.pending.map fun p => (p.1, some value) }

end Scan

/-! ### Reading one level -/

/-- Whether some text is a number without a sign: digits, then perhaps a point and digits, then
perhaps an exponent. -/
def isNumber (cs : List Char) : Bool :=
  let significand := cs.takeWhile (fun c => c ≠ 'e' && c ≠ 'E')
  let exponent := cs.drop significand.length
  let whole := significand.takeWhile Char.isDigit
  let fraction := significand.drop whole.length
  let plain := match fraction with
    | [] => true
    | c :: rest => c = '.' && !whole.isEmpty && rest.all Char.isDigit
  let powered := match exponent with
    | [] => true
    | _ :: digits => !significand.isEmpty && !digits.isEmpty && digits.all Char.isDigit
  plain && powered

/-- An argument by its form. -/
inductive ArgumentForm where
  /-- What follows two hyphens. -/
  | long (text : List Char)
  /-- What follows one hyphen. -/
  | short (text : List Char)
  | word

/-- The form of an argument; a lone hyphen is a word. -/
def ArgumentForm.of (argument : String) : ArgumentForm :=
  match argument.toList with
  | '-' :: '-' :: text => .long text
  | '-' :: c :: text => .short (c :: text)
  | _ => .word

namespace Grammar

/-- The option with a long name. -/
def long? (g : Grammar) (name : String) : Option OptionKey :=
  (g.options.find? (fun o => o.long = name)).map OptionName.key

/-- The option with a short name. -/
def short? (g : Grammar) (name : Char) : Option OptionKey :=
  (g.options.find? (fun o => o.short = name)).map OptionName.key

/-- Takes an option with a long name. -/
def takeLong (g : Grammar) (s : Scan) (text : List Char) : Except Refusal Scan :=
  match g.long? (String.ofList (text.takeWhile (· ≠ '='))), text.dropWhile (· ≠ '=') with
  | none, _ => .error .unknownArgument
  | some key, [] => if key.takesValue then s.takeOption key else s.takeFlag key
  | some key, _ :: value =>
    if key.takesValue then s.takeAttached key value else .error .needlessValue

/-- Takes options with short names, written together; one that needs a value takes the rest. -/
def takeShort (g : Grammar) (s : Scan) : List Char → Except Refusal Scan
  | [] => .ok s
  | c :: rest =>
    match g.short? c with
    | none => .error .unknownArgument
    | some key =>
      if key.takesValue then
        match rest with
        | [] => s.takeOption key
        | '=' :: value => s.takeAttached key value
        | value => s.takeAttached key value
      else
        match s.takeFlag key with
        | .ok s => g.takeShort s rest
        | .error refusal => .error refusal

/-- Whether the next word may be a negative number. -/
def admitsNumber (g : Grammar) (s : Scan) : Bool := g.numbersFrom.any (· ≤ s.words.length)

/-- Whether the level has room for another word. -/
def admitsWord (g : Grammar) (s : Scan) : Bool := g.maxWords.all (s.words.length < ·)

/-- Why a word too many is refused, if `literal` behind the mark that ends the options. -/
def wordRefusal (g : Grammar) (literal : Bool) (word : String) : Refusal :=
  if g.commands.isEmpty || (literal && g.commands.contains word) then .unknownArgument
  else .unknownCommand

/-- Takes a word if there is room for it. -/
def takeWord (g : Grammar) (literal : Bool) (s : Scan) (word : String) : Except Refusal Scan :=
  if g.admitsWord s then s.takeWord word else .error (g.wordRefusal literal word)

/-- Takes one argument that is neither a command nor the mark that ends the options. -/
def take (g : Grammar) (s : Scan) (argument : String) : Except Refusal Scan :=
  match ArgumentForm.of argument with
  | .long text => g.takeLong s text
  | .short text => if g.admitsNumber s && isNumber text then plain else g.takeShort s text
  | .word => plain
where
  plain : Except Refusal Scan :=
    if s.awaitsValue then .ok (s.takeValue argument) else g.takeWord false s argument

/-- Reads a level up to the name of a command; gives the command with the arguments behind it. -/
def scan (g : Grammar) (s : Scan) :
    List String → Except Refusal (Scan × Option (String × List String))
  | [] => .ok (s, none)
  | argument :: arguments =>
    if !s.awaitsValue && g.commands.contains argument then .ok (s, some (argument, arguments))
    else if argument = "--" then do
      let s ← arguments.foldlM (g.takeWord true) s
      .ok (s, none)
    else
      match g.take s argument with
      | .ok s => g.scan s arguments
      | .error refusal => .error refusal

end Grammar

/-! ### The commands -/

/-- Options that every level takes. -/
def commonOptions : List OptionName :=
  [⟨'v', "verbose", .verbose⟩, ⟨'f', "format", .format⟩, ⟨'r', "runtime", .runtime⟩,
    ⟨'h', "help", .help⟩]

/-- Where a source text comes from, and which script is evaluated before it. -/
structure SourceArguments where
  /-- Standard input if absent or a hyphen. -/
  source : Option String
  preamble : Option String
deriving DecidableEq, Repr

/-- A function to call, its arguments as JSON, and which script is evaluated before. -/
structure CallArguments where
  function : String
  arguments : List String
  preamble : Option String
deriving DecidableEq, Repr

/-- What is to be done. -/
inductive Command where
  /-- Print the value of an expression. -/
  | eval (arguments : SourceArguments)
  /-- Print what a function body returns. -/
  | exec (arguments : SourceArguments)
  /-- Print what a function returns. -/
  | call (arguments : CallArguments)
  /-- List the runtimes. -/
  | runtimes
deriving DecidableEq, Repr

/-- The kinds of commands. -/
inductive CommandName where
  | eval
  | exec
  | call
  | runtimes
deriving DecidableEq, Repr

namespace CommandName

/-- The commands by their names. -/
def all : List (String × CommandName) :=
  [("eval", eval), ("exec", exec), ("call", call), ("runtimes", runtimes)]

/-- What a command takes. -/
def grammar : CommandName → Grammar
  | eval | exec => { options := ownOptions, maxWords := some 1 }
  | call => { options := ownOptions, minWords := 1, maxWords := none, numbersFrom := some 1 }
  | runtimes => { options := commonOptions }
where
  ownOptions : List OptionName := commonOptions ++ [⟨'p', "preamble", .preamble⟩]

/-- The command that was read. -/
def command (name : CommandName) (s : Scan) : Command :=
  let preamble := s.values.lookup .preamble
  match name with
  | eval => .eval ⟨s.words.head?, preamble⟩
  | exec => .exec ⟨s.words.head?, preamble⟩
  | call => .call ⟨s.words.headD "", s.words.tail, preamble⟩
  | runtimes => .runtimes

/-- Reads the arguments of a command. -/
def read (name : CommandName) (arguments : List String) : Except Refusal Scan := do
  let (s, _) ← name.grammar.scan .empty arguments
  let s ← s.settle
  if s.words.length < name.grammar.minWords then .error .missingWord else .ok s

end CommandName

/-- The word that asks for help on a command. -/
def helpWord : String := "help"

/-- What stands before a command. -/
def outerGrammar : Grammar where
  options := commonOptions ++ [⟨'V', "version", .version⟩]
  commands := CommandName.all.map Prod.fst ++ [helpWord]

/-- The refusal that a request for help on a command ends with. -/
def helpRefusal : List String → Refusal
  | [] => .help
  | [name] => if outerGrammar.commands.contains name then .help else .unknownCommand
  | _ => .unknownCommand

/-! ### The whole command line -/

/-- A command line that can be run. -/
structure Invocation where
  verbosity : Nat
  format : Format
  /-- The runtime to use in place of any other choice. -/
  runtime : Option String
  command : Command
deriving DecidableEq, Repr

namespace Invocation

/-- The invocation that the two levels give; what stands behind the command wins. -/
def ofScans (outer inner : Scan) (name : CommandName) : Invocation where
  verbosity := (inner.verbosity <|> outer.verbosity).getD 0
  format := ((inner.values.lookup .format <|> outer.values.lookup .format).bind
    Format.ofName?).getD .text
  runtime := inner.values.lookup .runtime <|> outer.values.lookup .runtime
  command := name.command inner

/-- Reads a command line. -/
def ofArguments (arguments : List String) : Except Refusal Invocation := do
  match ← outerGrammar.scan .empty arguments with
  | (outer, none) =>
    let outer ← outer.settle
    .error (if outer.verbosity.isNone && outer.values.isEmpty then .nothingGiven else .missingCommand)
  | (outer, some (word, rest)) =>
    match CommandName.all.lookup word with
    | none => .error (helpRefusal rest)
    | some name =>
      let inner ← name.read rest
      let outer ← outer.settle
      .ok (ofScans outer inner name)

end Invocation

end EnginePipe.Cli
