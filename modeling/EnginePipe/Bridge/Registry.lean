import EnginePipe.Text.Quoted

/-!
# Registries

Runtimes under names, in the order in which the names were first registered.  A runtime that is
registered under a name that is there takes the place of the one it replaces.  Some entries are
**automatic**: they may be used without being asked for.

* `get?_register_self`, `get?_register_of_ne`: the last registration under a name counts.
* `names_register`, `nodup_names_register`: a name appears once, where it was first registered.
-/

namespace EnginePipe.Bridge

/-- A runtime under a name. -/
structure Entry (ρ : Type) where
  name : String
  runtime : ρ
  /-- Whether it may be used without being asked for. -/
  isAuto : Bool
deriving DecidableEq, Repr

/-- Runtimes under names, in order. -/
structure Registry (ρ : Type) where
  entries : List (Entry ρ) := []
deriving DecidableEq, Repr

namespace Registry

variable {ρ : Type}

/-- No runtimes. -/
def empty : Registry ρ := { }

/-- Puts an entry in place of the one with its name, or behind all others. -/
def insert (entry : Entry ρ) : List (Entry ρ) → List (Entry ρ)
  | [] => [entry]
  | e :: entries => if e.name = entry.name then entry :: entries else e :: insert entry entries

/-- Adds an entry. -/
def register (registry : Registry ρ) (entry : Entry ρ) : Registry ρ :=
  ⟨insert entry registry.entries⟩

/-- The runtime under a name. -/
def get? (registry : Registry ρ) (name : String) : Option ρ :=
  (registry.entries.find? (·.name = name)).map Entry.runtime

/-- All names, in order. -/
def names (registry : Registry ρ) : List String := registry.entries.map Entry.name

/-- All runtimes, in order. -/
def runtimes (registry : Registry ρ) : List ρ := registry.entries.map Entry.runtime

/-- A registry as it is shown to developers. -/
def describe (nameOf : ρ → String) (registry : Registry ρ) : String :=
  "\x7b" ++ ", ".intercalate (registry.entries.map fun e =>
    Text.quoted e.name ++ ": " ++ Text.quoted (nameOf e.runtime)) ++ "\x7d"

theorem find?_insert_self (entry : Entry ρ) (entries : List (Entry ρ)) :
    (insert entry entries).find? (·.name = entry.name) = some entry := by
  induction entries with
  | nil => simp [insert]
  | cons e entries ih =>
    by_cases h : e.name = entry.name
    · simp [insert, h]
    · simp only [insert, if_neg h]
      rw [List.find?_cons_of_neg (by simpa using h)]
      exact ih

theorem find?_insert_of_ne {entry : Entry ρ} {name : String} (hn : name ≠ entry.name)
    (entries : List (Entry ρ)) :
    (insert entry entries).find? (·.name = name) = entries.find? (·.name = name) := by
  induction entries with
  | nil => simp [insert, Ne.symm hn]
  | cons e entries ih =>
    by_cases h : e.name = entry.name
    · simp [insert, h, Ne.symm hn]
    · simp only [insert, if_neg h, List.find?_cons]
      rw [ih]

theorem get?_register_self (registry : Registry ρ) (entry : Entry ρ) :
    (registry.register entry).get? entry.name = some entry.runtime := by
  simp [get?, register, find?_insert_self]

theorem get?_register_of_ne (registry : Registry ρ) {entry : Entry ρ} {name : String}
    (h : name ≠ entry.name) : (registry.register entry).get? name = registry.get? name := by
  simp [get?, register, find?_insert_of_ne h]

theorem names_insert (entry : Entry ρ) (entries : List (Entry ρ)) :
    (insert entry entries).map Entry.name =
      if entry.name ∈ entries.map Entry.name then entries.map Entry.name
      else entries.map Entry.name ++ [entry.name] := by
  induction entries with
  | nil => simp [insert]
  | cons e entries ih =>
    by_cases h : e.name = entry.name
    · simp [insert, h]
    · have h' : entry.name ≠ e.name := Ne.symm h
      simp only [insert, if_neg h, List.map_cons, ih, List.mem_cons, h', false_or]
      split <;> simp

theorem names_register (registry : Registry ρ) (entry : Entry ρ) :
    (registry.register entry).names =
      if entry.name ∈ registry.names then registry.names
      else registry.names ++ [entry.name] :=
  names_insert entry registry.entries

theorem nodup_names_register {registry : Registry ρ} (h : registry.names.Nodup) (entry : Entry ρ) :
    (registry.register entry).names.Nodup := by
  rw [names_register]
  split
  · exact h
  · next hn =>
    refine List.nodup_append.2 ⟨h, by simp, ?_⟩
    intro name hm other ho
    rw [List.mem_singleton.1 ho]
    rintro rfl
    exact hn hm

end Registry

end EnginePipe.Bridge
