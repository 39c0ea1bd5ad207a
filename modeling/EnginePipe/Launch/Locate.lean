import EnginePipe.Host.Basic

/-!
# Locating programs

A **locator** finds the executable that a program name stands for.  The one over a search path tries
the directories in order.  A name with more than one component is a path of its own: it is looked up
from the working directory and never on the search path.
-/

namespace EnginePipe.Launch

/-- Finds the path of a program; may answer differently each time. -/
abbrev Locator (ω : Type) : Type := String → ω → Option String × ω

/-- The directories of a search path. -/
def searchDirs (search : String) : List String :=
  (Text.splitWhere (· = ':') search.toList).map String.ofList

/-- A directory in which a leading `~` stands for the home directory. -/
def expandHome (home : Option String) (dir : String) : String :=
  match Host.components dir, home with
  | "~" :: names, some home => names.foldl Host.join home
  | _, _ => dir

/-- The paths at which a program may be, the first that is executable counts. -/
def candidatePaths (host : Host) (search : Option String) (program : String) : List String :=
  let names := Host.components program
  if 1 < names.length then
    if Host.Files.isAbsolute program then [program]
    else [(names.dropWhile (· = ".")).foldl Host.join host.workingDir]
  else
    ((search.map searchDirs).getD []).map fun dir =>
      Host.join (expandHome (host.nonemptySetting? "HOME") dir) program

/-- The path of a program, for a search path that is given or else the one of the environment. -/
def locate (host : Host) (search : Option String) (program : String) : Option String :=
  (candidatePaths host (search <|> host.setting? "PATH") program).find?
    (host.files.isExecutable host.workingDir)

/-- The locator over a search path; it leaves the host as it is. -/
def pathLocator (search : Option String) : Locator Host := fun program host =>
  (locate host search program, host)

theorem isExecutable_of_locate {host : Host} {search : Option String} {program path : String}
    (h : locate host search program = some path) :
    host.files.isExecutable host.workingDir path :=
  List.find?_some h

end EnginePipe.Launch
