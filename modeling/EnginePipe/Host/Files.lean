import EnginePipe.Host.SystemError
import EnginePipe.Text.Blank

/-!
# Files

What a host keeps on disk, as far as engines and scripts need it: a tree of directories, files with
a mode, and symbolic links.  A path is read name by name from the root or from the working
directory; a link is followed wherever it stands, and a path that ends in a slash must lead to a
directory.  The system sets bounds on the length of a name, on the length of a path and on the number of
links that one path may lead over.

* `Files.reach`: where a path leads, also if nothing stands there yet.
* `Files.lookup`: what stands where a path leads.
* `Files.descend_length`: what is left to read behind a link is no longer than what there was.
-/

namespace EnginePipe.Host

/-- An entry of the tree. -/
inductive Node (γ : Type) where
  | file (mode : Nat) (content : γ)
  | directory
  | link (target : String)
deriving Repr

/-- The names from the root to an entry. -/
abbrev Location : Type := List String

/-- A tree of entries; the root is always there. -/
structure Files (γ : Type) where
  entries : List (Location × Node γ)

namespace Files

variable {γ : Type}

def empty : Files γ := ⟨[]⟩

/-- The entry at a location. -/
def node? (files : Files γ) (location : Location) : Option (Node γ) :=
  if location.isEmpty then some .directory else files.entries.lookup location

/-- Removes the entry at a location. -/
def remove (files : Files γ) (location : Location) : Files γ :=
  ⟨files.entries.filter (fun entry => entry.1 ≠ location)⟩

/-- Puts an entry at a location, over one that is there. -/
def put (files : Files γ) (location : Location) (node : Node γ) : Files γ :=
  ⟨(location, node) :: (files.remove location).entries⟩

theorem node?_put_self {location : Location} (h : location ≠ []) (files : Files γ) (node : Node γ) :
    (files.put location node).node? location = some node := by
  simp [node?, put, h]

theorem node?_put_of_ne {location there : Location} (h : there ≠ location) (files : Files γ)
    (node : Node γ) : (files.put location node).node? there = files.node? there := by
  have hb : (there == location) = false := by simpa using h
  have hr : (files.remove location).entries.lookup there = files.entries.lookup there := by
    simp only [remove]
    induction files.entries with
    | nil => rfl
    | cons entry entries ih =>
      obtain ⟨place, old⟩ := entry
      by_cases he : place = location
      · rw [List.filter_cons_of_neg (by simp [he]), ih, List.lookup_cons, he, hb]
      · rw [List.filter_cons_of_pos (by simp [he]), List.lookup_cons, List.lookup_cons, ih]
  simp only [node?, put, List.lookup_cons, hb]
  rw [hr]

/-! ### Paths -/

/-- The names on a path; a slash at its end stands for the directory itself. -/
def names (path : String) : List String :=
  let pieces := (Text.splitWhere (· = '/') path.toList).filter (fun piece => ¬ piece.isEmpty)
  let trailing := if path.toList.getLast? = some '/' then ["."] else []
  pieces.map String.ofList ++ trailing

/-- Whether a path starts at the root. -/
def isAbsolute (path : String) : Bool := path.toList.head? = some '/'

/-- The names on the way from the root, for a path that may start at a working directory. -/
def namesFrom (workingDir path : String) : List String :=
  if isAbsolute path then names path else names workingDir ++ names path

/-- How many bytes a name may have. -/
def maxNameSize : Nat := 255

/-- How many bytes a path may have. -/
def maxPathSize : Nat := 4095

/-- How many links a path may lead over. -/
def maxLinks : Nat := 40

/-- Where reading names comes to a stop. -/
inductive Stop (γ : Type) where
  /-- All names are read; nothing need stand there. -/
  | arrived (location : Location) (node : Option (Node γ))
  /-- A link stands in a directory, and names are left to read. -/
  | link (directory : Location) (target : String) (rest : List String)
deriving Repr

/-- Reads names from a location up to the first link. -/
def descend (files : Files γ) (here : Location) : List String → Except SystemError (Stop γ)
  | [] =>
    match files.node? here with
    | some (.link target) => .ok (.link here.dropLast target [])
    | node => .ok (.arrived here node)
  | name :: rest =>
    match files.node? here with
    | none => .error .notFound
    | some (.link target) => .ok (.link here.dropLast target (name :: rest))
    | some (.file _ _) => .error .notDirectory
    | some .directory =>
      if name = "." then descend files here rest
      else if name = ".." then descend files here.dropLast rest
      else if maxNameSize < name.utf8ByteSize then .error .nameTooLong
      else descend files (here ++ [name]) rest

/-- Reads names from a location, over at most so many links. -/
def walk (files : Files γ) (links : Nat) (here : Location) (rest : List String) :
    Except SystemError (Location × Option (Node γ)) :=
  match files.descend here rest with
  | .error e => .error e
  | .ok (.arrived location node) => .ok (location, node)
  | .ok (.link directory target rest) =>
    match links with
    | 0 => .error .tooManyLinks
    | links + 1 => walk files links (if isAbsolute target then [] else directory) (names target ++ rest)

/-- Where a path leads, and what stands there. -/
def reach (files : Files γ) (workingDir path : String) :
    Except SystemError (Location × Option (Node γ)) :=
  if path.isEmpty then .error .notFound
  else if maxPathSize < path.utf8ByteSize then .error .nameTooLong
  else files.walk maxLinks [] (namesFrom workingDir path)

/-- What stands where a path leads. -/
def lookup (files : Files γ) (workingDir path : String) :
    Except SystemError (Location × Node γ) :=
  match files.reach workingDir path with
  | .error e => .error e
  | .ok (_, none) => .error .notFound
  | .ok (location, some node) => .ok (location, node)

theorem descend_length {files : Files γ} {here directory : Location} {names rest : List String}
    {target : String} (h : files.descend here names = .ok (.link directory target rest)) :
    rest.length ≤ names.length := by
  induction names generalizing here with
  | nil =>
    simp only [descend] at h
    split at h <;> simp_all
  | cons name names ih =>
    simp only [descend] at h
    split at h
    · simp at h
    · simp only [Except.ok.injEq, Stop.link.injEq] at h
      exact Nat.le_of_eq (congrArg List.length h.2.2).symm
    · simp at h
    · have hlen : ∀ {there}, files.descend there names = .ok (.link directory target rest) →
          rest.length ≤ (name :: names).length := fun h => Nat.le_succ_of_le (ih h)
      split at h
      · exact hlen h
      · split at h
        · exact hlen h
        · split at h
          · simp at h
          · exact hlen h

/-! ### Files and programs -/

/-- Whether a mode lets anyone execute. -/
def isExecutableMode (mode : Nat) : Bool := mode &&& 0o111 ≠ 0

/-- Whether a path leads to a file that can be executed. -/
def isExecutable (files : Files γ) (workingDir path : String) : Bool :=
  match files.lookup workingDir path with
  | .ok (_, .file mode _) => isExecutableMode mode
  | _ => false

/-- What is executed at a path, or why nothing is. -/
def executable (files : Files γ) (workingDir path : String) : Except SystemError γ :=
  match files.lookup workingDir path with
  | .error e => .error e
  | .ok (_, .file mode content) =>
    if isExecutableMode mode then .ok content else .error .permissionDenied
  | .ok _ => .error .permissionDenied

/-- The content of the file at a path. -/
def content (files : Files γ) (workingDir path : String) : Except SystemError γ :=
  match files.lookup workingDir path with
  | .error e => .error e
  | .ok (_, .file _ content) => .ok content
  | .ok _ => .error .isDirectory

end Files

end EnginePipe.Host
