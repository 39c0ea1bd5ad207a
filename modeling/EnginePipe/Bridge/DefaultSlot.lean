import EnginePipe.Bridge.Selector

/-!
# The default runtime

A slot for the runtime that is used where none is named.  It is filled by assignment, or by the first
successful detection, and then keeps its runtime until another is assigned.

* `get_of_some`: a filled slot is not detected again.
* `assign_of_unavailable`: a runtime that cannot be used is not assigned.
-/

namespace EnginePipe.Bridge.DefaultSlot

variable {ρ σ : Type}

/-- The default runtime; detects it if there is none. -/
def get (detect : Attempt σ ρ) : Attempt (Option ρ × σ) ρ := fun (slot, s) =>
  match slot with
  | some r => (.ok r, slot, s)
  | none =>
    match detect s with
    | (.ok r, s) => (.ok r, some r, s)
    | (.error e, s) => (.error e, none, s)

/-- Makes a runtime the default, if it can be used. -/
def assign [Candidates ρ σ] (r : ρ) : Attempt (Option ρ × σ) Unit := fun (slot, s) =>
  match Candidates.isAvailable r s with
  | (true, s) => (.ok (), some r, s)
  | (false, s) => (.error (.runtimeUnavailable (Candidates.name s r)), slot, s)

@[simp] theorem get_of_some (detect : Attempt σ ρ) (r : ρ) (s : σ) :
    get detect (some r, s) = (.ok r, some r, s) := rfl

theorem assign_of_unavailable [Candidates ρ σ] {r : ρ} {s s' : σ}
    (h : Candidates.isAvailable r s = (false, s')) (slot : Option ρ) :
    assign r (slot, s) = (.error (.runtimeUnavailable (Candidates.name s' r)), slot, s') := by
  simp [assign, h]

end EnginePipe.Bridge.DefaultSlot
