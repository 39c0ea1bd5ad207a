import EnginePipe.Engine.RuleScript
import EnginePipe.Host.Changes
import EnginePipe.Text.Bytes

/-!
# Hosts

The machine that a command runs on: its files, its environment and the working directory.  A file
holds bytes, or it is a program that can be started: an engine or the system's shell.

* `readText_write`: a text that was written at a path is read there.
-/

namespace EnginePipe

/-- What a file holds. -/
inductive Host.Content where
  | bytes (data : List UInt8)
  /-- A program that answers requests by rules. -/
  | engine (rules : Engine.Rulebook)
  /-- The system's shell, which is no text. -/
  | shell
deriving Repr

/-- A machine. -/
structure Host where
  files : Host.Files Host.Content
  workingDir : String
  environment : List (String × String)

namespace Host

/-- The value of an environment variable, if it is set. -/
def setting? (host : Host) (name : String) : Option String := host.environment.lookup name

/-- The value of an environment variable, if it is set and not empty. -/
def nonemptySetting? (host : Host) (name : String) : Option String :=
  (host.setting? name).filter (fun value => !value.isEmpty)

/-- The text that a file holds, if it holds one. -/
def Content.text? : Content → Option String
  | bytes data => Text.ofBytes? data
  | engine rules => some rules.script
  | shell => none

/-- The character that ends a text for the system, so it cannot be part of one. -/
def terminator : Char := '\x00'

/-- Whether the system can be given a text. -/
def isPassable (s : String) : Bool := !s.toList.contains terminator

/-- What is said about a path that the system cannot be given. -/
def unpassablePath : String := "file name contained an unexpected NUL byte"

/-- The text of the file at a path, or why there is none. -/
def readText (host : Host) (path : String) : Except String String :=
  if isPassable path then
    match host.files.content host.workingDir path with
    | .error e => .error e.message
    | .ok content =>
      match content.text? with
      | some text => .ok text
      | none => .error Text.invalidText
  else .error unpassablePath

theorem readText_write {host : Host} {path : String} {location : Location}
    {found : Option (Node Content)} (hp : isPassable path)
    (h : host.files.reach host.workingDir path = .ok (location, found))
    (hw : Files.IsWritable found) (text : String) :
    { host with
      files := host.files.write host.workingDir path (.bytes (Text.bytes text)) }.readText path =
      .ok text := by
  simp [readText, hp, Files.content_write h hw, Content.text?, Text.ofBytes?_bytes]

/-! ### What every system has -/

/-- The directories that every system has. -/
def systemDirectories : List String := ["/bin", "/dev", "/etc", "/tmp", "/usr/bin"]

/-- The file that is always empty. -/
def nullPath : String := "/dev/null"

/-- The mode of a program. -/
def programMode : Nat := 0o755

/-- The files of a host on which nothing was put yet. -/
def systemFiles : Files Content :=
  let tree := systemDirectories.foldl
    (fun files path => files.makeDirectories [] (Files.names path)) Files.empty
  let tree := tree.write "/" nullPath (.bytes [])
  (tree.write "/" Engine.shellPath .shell).setMode "/" Engine.shellPath programMode

/-! ### Paths -/

/-- A name or path taken relative to a directory. -/
def join (dir name : String) : String :=
  if Files.isAbsolute name ∨ dir.isEmpty then name
  else if dir.toList.getLast? = some '/' then dir ++ name
  else dir ++ "/" ++ name

/-- The components of a path: the root, a leading dot, and the names other than a dot. -/
def components (path : String) : List String :=
  let pieces := ((Text.splitWhere (· = '/') path.toList).filter (fun piece => ¬ piece.isEmpty)).map
    String.ofList
  if Files.isAbsolute path then "/" :: pieces.filter (· ≠ ".")
  else
    match pieces with
    | "." :: names => "." :: names.filter (· ≠ ".")
    | names => names.filter (· ≠ ".")

/-- The directory part of a path to a file. -/
def directoryOf (path : String) : String :=
  match (Text.splitWhere (· = '/') path.toList).dropLast with
  | [] => "."
  | pieces => "/".intercalate (pieces.map String.ofList) ++ "/"

end Host

end EnginePipe
