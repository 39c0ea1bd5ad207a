import EnginePipe.Host.Files

/-!
# Changes to files

Making directories, writing files, setting links and modes, and removing entries.  Writing and setting a
mode lead through a link to what it stands for; setting a link and removing act on the entry itself.  A
change that the tree does not admit leaves it as it is.

* `walk_put`: a file put where no directory and no link stands changes no way through the tree.
* **`content_write`: what was written at a path is read there.**
-/

namespace EnginePipe.Host.Files

variable {γ : Type}

/-- Makes the directories on a way from a location that are not there. -/
def makeDirectories (files : Files γ) (here : Location) : List String → Files γ
  | [] => files
  | name :: rest =>
    match files.walk maxLinks here [name] with
    | .ok (location, some _) => makeDirectories files location rest
    | .ok (location, none) => makeDirectories (files.put location .directory) location rest
    | .error _ => files

/-- The mode of a file that is made by writing it. -/
def defaultMode : Nat := 0o644

/-- Writes a file. One that is there keeps its mode. -/
def write (files : Files γ) (workingDir path : String) (content : γ) : Files γ :=
  match files.reach workingDir path with
  | .ok (location, none) => files.put location (.file defaultMode content)
  | .ok (location, some (.file mode _)) => files.put location (.file mode content)
  | _ => files

/-- Sets the mode of a file. -/
def setMode (files : Files γ) (workingDir path : String) (mode : Nat) : Files γ :=
  match files.reach workingDir path with
  | .ok (location, some (.file _ content)) => files.put location (.file mode content)
  | _ => files

/-- The place of the last name of a path, whatever stands there. -/
def entryAt (files : Files γ) (workingDir path : String) : Except SystemError Location :=
  let way := namesFrom workingDir path
  match way.getLast?, files.walk maxLinks [] way.dropLast with
  | some name, .ok (location, some .directory) =>
    if name = "." ∨ name = ".." then .error .isDirectory else .ok (location ++ [name])
  | some _, .ok (_, some _) => .error .notDirectory
  | some _, .error e => .error e
  | _, _ => .error .notFound

/-- Sets a link where nothing stands. -/
def setLink (files : Files γ) (workingDir path target : String) : Files γ :=
  match files.entryAt workingDir path with
  | .error _ => files
  | .ok location =>
    match files.node? location with
    | some _ => files
    | none => files.put location (.link target)

/-- Removes a file or a link. -/
def unlink (files : Files γ) (workingDir path : String) : Except SystemError (Files γ) :=
  match files.entryAt workingDir path with
  | .error e => .error e
  | .ok location =>
    match files.node? location with
    | none => .error .notFound
    | some .directory => .error .isDirectory
    | some _ => .ok (files.remove location)

/-! ### Reading what was written -/

/-- Whether a file can be written where this stands. -/
def IsWritable (node : Option (Node γ)) : Prop :=
  node = none ∨ ∃ mode content, node = some (.file mode content)

/-- A stop after an entry was put at a location. -/
def Stop.afterPut (location : Location) (node : Node γ) : Stop γ → Stop γ
  | .arrived there found => .arrived there (if there = location then some node else found)
  | .link directory target rest => .link directory target rest

theorem node?_put {location : Location} (h : location ≠ []) (files : Files γ) (node : Node γ)
    (there : Location) :
    (files.put location node).node? there =
      if there = location then some node else files.node? there := by
  by_cases he : there = location
  · rw [if_pos he, he, node?_put_self h]
  · rw [if_neg he, node?_put_of_ne he]

theorem ne_nil_of_isWritable {files : Files γ} {location : Location}
    (h : IsWritable (files.node? location)) : location ≠ [] := by
  rintro rfl
  rcases h with h | ⟨mode, content, h⟩ <;> simp [node?] at h

theorem descend_put {files : Files γ} {location : Location} (hw : IsWritable (files.node? location))
    (mode : Nat) (content : γ) {names : List String} {here : Location} {stop : Stop γ}
    (h : files.descend here names = .ok stop) :
    (files.put location (.file mode content)).descend here names =
      .ok (stop.afterPut location (.file mode content)) := by
  have hnode := node?_put (ne_nil_of_isWritable hw) files (.file mode content)
  have hne : ∀ {there node}, files.node? there = some node → ¬ IsWritable (some node) →
      there ≠ location := by
    rintro there node hf hn rfl
    exact hn (hf ▸ hw)
  have hdir : ¬ IsWritable (some (.directory : Node γ)) := by simp [IsWritable]
  have hlink : ∀ target, ¬ IsWritable (some (.link target : Node γ)) := by simp [IsWritable]
  induction names generalizing here with
  | nil =>
    simp only [descend] at h ⊢
    rw [hnode]
    split at h
    · next target hf =>
      rw [if_neg (hne hf (hlink target)), hf]
      simp only [Except.ok.injEq] at h
      rw [← h]
      rfl
    · next hf =>
      simp only [Except.ok.injEq] at h
      rw [← h]
      by_cases he : here = location
      · simp [he, Stop.afterPut]
      · rw [if_neg he]
        split
        · next target hl => exact absurd hl (hf target)
        · simp [Stop.afterPut, he]
  | cons name names ih =>
    simp only [descend] at h ⊢
    rw [hnode]
    split at h
    · simp at h
    · next target hf =>
      rw [if_neg (hne hf (hlink target)), hf]
      simp only [Except.ok.injEq] at h
      rw [← h]
      rfl
    · simp at h
    · next hf =>
      rw [if_neg (hne hf hdir), hf]
      simp only
      split at h
      · next hn => rw [if_pos hn]; exact ih h
      · next hn =>
        rw [if_neg hn]
        split at h
        · next hp => rw [if_pos hp]; exact ih h
        · next hp =>
          rw [if_neg hp]
          split at h
          · simp at h
          · next hs => rw [if_neg hs]; exact ih h

theorem walk_put {files : Files γ} {location : Location} (hw : IsWritable (files.node? location))
    (mode : Nat) (content : γ) {links : Nat} {names : List String} {here there : Location}
    {found : Option (Node γ)} (h : files.walk links here names = .ok (there, found)) :
    (files.put location (.file mode content)).walk links here names =
      .ok (there, if there = location then some (.file mode content) else found) := by
  induction links generalizing here names with
  | zero =>
    unfold walk at h ⊢
    split at h
    · simp at h
    · next hd =>
      simp only [Except.ok.injEq, Prod.mk.injEq] at h
      rw [descend_put hw mode content hd]
      simp [Stop.afterPut, h.1, h.2]
    · simp at h
  | succ links ih =>
    unfold walk at h ⊢
    split at h
    · simp at h
    · next hd =>
      simp only [Except.ok.injEq, Prod.mk.injEq] at h
      rw [descend_put hw mode content hd]
      simp [Stop.afterPut, h.1, h.2]
    · next hd =>
      rw [descend_put hw mode content hd]
      exact ih h

theorem reach_put {files : Files γ} {location : Location} (hw : IsWritable (files.node? location))
    (mode : Nat) (content : γ) {workingDir path : String} {found : Option (Node γ)}
    (h : files.reach workingDir path = .ok (location, found)) :
    (files.put location (.file mode content)).reach workingDir path =
      .ok (location, some (.file mode content)) := by
  unfold reach at h ⊢
  split at h
  · simp at h
  · next he =>
    rw [if_neg he]
    split at h
    · simp at h
    · next hs => rw [if_neg hs, walk_put hw mode content h, if_pos rfl]

theorem node?_of_descend {files : Files γ} {names : List String} {here location : Location}
    {found : Option (Node γ)} (h : files.descend here names = .ok (.arrived location found)) :
    found = files.node? location := by
  induction names generalizing here with
  | nil =>
    simp only [descend] at h
    split at h
    · simp at h
    · simp only [Except.ok.injEq, Stop.arrived.injEq] at h
      rw [← h.1, h.2]
  | cons name names ih =>
    simp only [descend] at h
    repeat' split at h
    all_goals first | exact ih h | simp at h

theorem node?_of_walk {files : Files γ} {links : Nat} {names : List String} {here location : Location}
    {found : Option (Node γ)} (h : files.walk links here names = .ok (location, found)) :
    found = files.node? location := by
  induction links generalizing here names with
  | zero =>
    unfold walk at h
    split at h
    · simp at h
    · next hd =>
      simp only [Except.ok.injEq, Prod.mk.injEq] at h
      rw [← h.1, ← h.2]
      exact node?_of_descend hd
    · simp at h
  | succ links ih =>
    unfold walk at h
    split at h
    · simp at h
    · next hd =>
      simp only [Except.ok.injEq, Prod.mk.injEq] at h
      rw [← h.1, ← h.2]
      exact node?_of_descend hd
    · exact ih h

theorem node?_of_reach {files : Files γ} {workingDir path : String} {location : Location}
    {found : Option (Node γ)} (h : files.reach workingDir path = .ok (location, found)) :
    found = files.node? location := by
  unfold reach at h
  split at h
  · simp at h
  · split at h
    · simp at h
    · exact node?_of_walk h

theorem content_write {files : Files γ} {workingDir path : String} {location : Location}
    {found : Option (Node γ)} (h : files.reach workingDir path = .ok (location, found))
    (hw : IsWritable found) (content : γ) :
    (files.write workingDir path content).content workingDir path = .ok content := by
  have hl : IsWritable (files.node? location) := node?_of_reach h ▸ hw
  rcases hw with rfl | ⟨mode, old, rfl⟩
  · simp [write, h, Files.content, lookup, reach_put hl defaultMode content h]
  · simp [write, h, Files.content, lookup, reach_put hl mode content h]

end EnginePipe.Host.Files
