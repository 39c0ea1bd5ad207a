import EnginePipe.Attempt
import EnginePipe.Bridge.Registry

/-!
# Choosing a runtime

A selector takes the runtime that is asked for by name, or else the first automatic one that can be
used.  Asking whether a runtime can be used may change the state, so availability is a step.

* `select_of_override`: what is asked for is used or nothing is.
* `firstAvailable_eq_none_iff`: nothing is found only if nothing can be used, when asking changes
  nothing.
* `bestAvailable_eq_select`: without a name, the selector and the registry agree.
-/

namespace EnginePipe.Bridge

/-- What has to be known about runtimes of the type `ρ` in a state `σ` to choose one. -/
class Candidates (ρ σ : Type) where
  /-- The name shown to people. -/
  name : σ → ρ → String
  /-- Whether it is only used when it is asked for. -/
  isDeprecated : σ → ρ → Bool
  /-- Whether it can be used. -/
  isAvailable : ρ → σ → Bool × σ

variable {ρ σ : Type}

/-- The entries that may be used without being asked for, in order of preference. -/
def Registry.candidates [Candidates ρ σ] (registry : Registry ρ) (s : σ) : List (Entry ρ) :=
  registry.entries.filter fun e => e.isAuto && !Candidates.isDeprecated s e.runtime

/-- The first entry whose runtime can be used; those behind it are not asked. -/
def firstAvailable [Candidates ρ σ] : List (Entry ρ) → σ → Option ρ × σ
  | [], s => (none, s)
  | e :: entries, s =>
    match Candidates.isAvailable e.runtime s with
    | (true, s) => (some e.runtime, s)
    | (false, s) => firstAvailable entries s

/-- The first candidate that can be used. -/
def Registry.bestAvailable [Candidates ρ σ] (registry : Registry ρ) (s : σ) : Option ρ × σ :=
  firstAvailable (registry.candidates s) s

/-- A registry, and the name that is asked for. -/
structure Selector (ρ : Type) where
  registry : Registry ρ
  override : Option String := none

namespace Selector

/-- The environment variable with the name that is asked for. -/
def environmentVariable : String := "JSBRIDGE_RUNTIME"

/-- The name that is asked for; an empty one asks for nothing. -/
def overrideName (selector : Selector ρ) : Option String :=
  selector.override.filter fun name => !name.isEmpty

/-- The runtime under a name, if it can be used. -/
def forced [Candidates ρ σ] (selector : Selector ρ) (name : String) : Attempt σ ρ := fun s =>
  match selector.registry.get? name with
  | none => (.error (.notDefined name), s)
  | some r =>
    match Candidates.isAvailable r s with
    | (true, s) => (.ok r, s)
    | (false, s) => (.error (.runtimeUnavailable (Candidates.name s r)), s)

/-- The first candidate that can be used and is not excluded. -/
def detect [Candidates ρ σ] (selector : Selector ρ) (excluded : List String) : Attempt σ ρ := fun s =>
  let entries := (selector.registry.candidates s).filter fun e => !excluded.contains e.name
  match firstAvailable entries s with
  | (some r, s) => (.ok r, s)
  | (none, s) => (.error .noRuntimeFound, s)

/-- The runtime that is asked for, or the first that can be used.  An exclusion does not bear on what
is asked for. -/
def select [Candidates ρ σ] (selector : Selector ρ) (excluded : List String) : Attempt σ ρ :=
  match selector.overrideName with
  | some name => selector.forced name
  | none => selector.detect excluded

theorem select_of_override [Candidates ρ σ] {selector : Selector ρ} {name : String}
    (h : selector.overrideName = some name) (excluded : List String) :
    (selector.select excluded : Attempt σ ρ) = selector.forced name := by
  simp [select, h]

end Selector

theorem firstAvailable_eq_none_iff [Candidates ρ σ] {entries : List (Entry ρ)} {s : σ}
    (h : ∀ e ∈ entries, (Candidates.isAvailable e.runtime s).2 = s) :
    (firstAvailable entries s).1 = none ↔
      ∀ e ∈ entries, (Candidates.isAvailable e.runtime s).1 = false := by
  induction entries with
  | nil => simp [firstAvailable]
  | cons e entries ih =>
    have he := h e (.head _)
    have hs := fun e' he' => h e' (.tail _ he')
    rw [firstAvailable]
    rcases hp : Candidates.isAvailable e.runtime s with ⟨answer, s'⟩
    rw [hp] at he
    simp only at he
    subst he
    cases answer
    · simp [hp, ih hs]
    · simp [hp]

theorem bestAvailable_eq_select [Candidates ρ σ] (registry : Registry ρ) (s : σ) :
    (registry.bestAvailable s).1 =
      ((⟨registry, none⟩ : Selector ρ).select [] s).1.toOption := by
  have hf : (registry.candidates s).filter (fun e => !([] : List String).contains e.name) =
      registry.candidates s := List.filter_eq_self.2 (by simp)
  simp only [Registry.bestAvailable, Selector.select, Selector.overrideName, Option.filter_none,
    Selector.detect, hf]
  split
  · next h => rw [h]; rfl
  · next h => rw [h]; rfl

end EnginePipe.Bridge
