import EnginePipe.Bridge.Desk
import EnginePipe.Launch.Launchers

/-!
# Built-in runtimes

The runtimes that are known from the start, in order of preference, and where the programs are that
their engines run.
-/

namespace EnginePipe.Bridge

open Launch (Station)

/-- The environment variable with the directory of the programs that engines run. -/
def supportVariable : String := "JSBRIDGE_SUPPORT_DIR"

/-- The directory of the programs that engines run: the one that is asked for, or else a given one. -/
def supportDir (fallback : String) (host : Host) : String :=
  (host.nonemptySetting? supportVariable).getD fallback

/-- A runtime whose commands are looked for on a search path, that of the host if none is given. -/
def onSearchPath (search : Option String) (d : Descriptor) : Runtime Host Station :=
  .external { descriptor := d, locator := Launch.pathLocator search, spawn := Launch.spawn }

/-- A runtime whose commands are never found. -/
def nowhere (d : Descriptor) : Runtime Host Station :=
  .external { descriptor := d, locator := fun _ host => (none, host), spawn := Launch.spawn }

namespace Builtin

/-- The names of the engine that is looked for first. -/
def nodeCommands : List String := ["nodejs", "node"]

/-- One process for all contexts. -/
def persistentNode (dir : String) : Descriptor where
  name := "Persistent Node.js (V8)"
  commands := nodeCommands
  bootstrap := Host.join dir "node_runner.js"
  isShared := true

/-- An engine that comes with one operating system. -/
def persistentJavaScriptCore (dir : String) : Descriptor where
  name := "Persistent JavaScriptCore"
  commands := ["/System/Library/Frameworks/JavaScriptCore.framework/Versions/A/Resources/jsc"]
  bootstrap := Host.join dir "jsc_runner.js"
  isShared := true

/-- An engine that comes with another, and that cannot take long lines. -/
def persistentJScript (dir : String) : Descriptor where
  name := "Persistent JScript"
  commands := ["cscript //E:jscript //Nologo"]
  bootstrap := Host.join dir "jscript_runner.js"
  isShared := true
  needsShortLines := true

/-- One process for each context. -/
def node (dir : String) : Descriptor where
  name := "Node.js (V8)"
  commands := nodeCommands
  bootstrap := Host.join dir "node_runner.js"

/-- The built-in runtimes, with the programs of their engines in a directory. -/
def registrations (dir : String) : List (Registration Host Station) :=
  [⟨"PersistentNode", onSearchPath none (persistentNode dir), true⟩,
    ⟨"PersistentJavaScriptCore", onSearchPath none (persistentJavaScriptCore dir), true⟩,
    ⟨"PersistentJScript", onSearchPath none (persistentJScript dir), true⟩,
    ⟨"Node", onSearchPath none (node dir), true⟩,
    ⟨"Disabled", .disabled, false⟩]

end Builtin

/-- The name of a runtime that the host's environment asks for. -/
def environmentOverride (host : Host) : Option String := host.setting? Selector.environmentVariable

/-- A new registry with the built-in runtimes. -/
def builtinTable (fallback : String) (d : Desk Host Station) :
    Registry RuntimeId × Desk Host Station :=
  d.table (Builtin.registrations (supportDir fallback d.world.host))

/-- Chooses among the built-in runtimes as the host's environment asks for.  Each time they are made
anew, so what is chosen has an engine of its own. -/
def autodetect (fallback : String) : Attempt (Desk Host Station) RuntimeId := fun d =>
  let (registry, d) := builtinTable fallback d
  Selector.select ⟨registry, environmentOverride d.world.host⟩ [] d

end EnginePipe.Bridge
