import EnginePipe.Bridge.Desk
import Mathlib.Data.List.Basic
import Mathlib.Data.List.Induction

/-!
# What is registered and what is chosen

A registry replaces in place and a selector searches through it, in two pieces of code that look alike.  Here
both are said by the registrations alone: under a name counts the last one, and the place of a name is that of
the first one.  Asking a runtime may change the state, so a search is said by who was asked before whom.

* `Registry.entries_registered`: **a registry is its names, each with the last registration under it**.
* `Registry.pairwise_names`: names stand in the order in which they first came.
* `firstAvailable_eq_ok_iff`, `firstAvailable_eq_none_iff_refuse`: what a search finds.
* `Selector.chooses_registered`: what is registered, what is asked for, and what is found otherwise.
* `Desk.Shuns.select`: on a desk, a runtime that is of no use is not chosen.
-/

namespace EnginePipe.Bridge

variable {ρ σ : Type}

/-! ### Registrations -/

namespace Registry

/-- A registry after registrations, one after the other. -/
def registered (calls : List (Entry ρ)) : Registry ρ := calls.foldl register empty

/-- The last registration under a name. -/
def latest? (calls : List (Entry ρ)) (name : String) : Option (Entry ρ) :=
  calls.reverse.find? (·.name = name)

/-- The place of the first registration under a name. -/
def firstPlace (calls : List (Entry ρ)) (name : String) : Nat := (calls.map Entry.name).idxOf name

theorem registered_append_singleton (calls : List (Entry ρ)) (call : Entry ρ) :
    registered (calls ++ [call]) = (registered calls).register call :=
  List.foldl_append

theorem latest?_append_self (calls : List (Entry ρ)) (call : Entry ρ) :
    latest? (calls ++ [call]) call.name = some call := by
  simp [latest?]

theorem latest?_append_of_ne (calls : List (Entry ρ)) {call : Entry ρ} {name : String}
    (h : name ≠ call.name) : latest? (calls ++ [call]) name = latest? calls name := by
  simp [latest?, Ne.symm h]

theorem latest?_eq_none_iff {calls : List (Entry ρ)} {name : String} :
    latest? calls name = none ↔ ∀ call ∈ calls, call.name ≠ name := by
  simp [latest?]

/-- Under a name stands the last registration. -/
theorem find?_registered (calls : List (Entry ρ)) (name : String) :
    (registered calls).entries.find? (·.name = name) = latest? calls name := by
  induction calls using List.reverseRecOn with
  | nil => rfl
  | append_singleton calls call ih =>
    rw [registered_append_singleton]
    by_cases h : name = call.name
    · subst h
      rw [latest?_append_self]
      exact find?_insert_self call _
    · rw [latest?_append_of_ne calls h, ← ih]
      exact find?_insert_of_ne h _

theorem get?_registered (calls : List (Entry ρ)) (name : String) :
    (registered calls).get? name = (latest? calls name).map Entry.runtime := by
  rw [get?, find?_registered]

theorem mem_names_registered {calls : List (Entry ρ)} {name : String} :
    name ∈ (registered calls).names ↔ ∃ call ∈ calls, call.name = name := by
  induction calls using List.reverseRecOn with
  | nil => simp [registered, empty, names]
  | append_singleton calls call ih =>
    rw [registered_append_singleton, names_register]
    by_cases hmem : call.name ∈ (registered calls).names
    · rw [if_pos hmem, ih]
      constructor
      · rintro ⟨c, hc, hname⟩
        exact ⟨c, List.mem_append_left _ hc, hname⟩
      · rintro ⟨c, hc, hname⟩
        rcases List.mem_append.1 hc with hc | hc
        · exact ⟨c, hc, hname⟩
        · rw [List.mem_singleton.1 hc] at hname
          exact ih.1 (hname ▸ hmem)
    · rw [if_neg hmem, List.mem_append, ih, List.mem_singleton]
      simp only [List.mem_append, List.mem_singleton, or_and_right, exists_or, exists_eq_left,
        eq_comm (a := name)]

theorem nodup_names (calls : List (Entry ρ)) : (registered calls).names.Nodup := by
  induction calls using List.reverseRecOn with
  | nil => exact List.nodup_nil
  | append_singleton calls call ih =>
    rw [registered_append_singleton]
    exact nodup_names_register ih call

theorem firstPlace_append {calls : List (Entry ρ)} {name : String}
    (h : name ∈ (registered calls).names) (call : Entry ρ) :
    firstPlace (calls ++ [call]) name = firstPlace calls name := by
  obtain ⟨c, hc, hname⟩ := mem_names_registered.1 h
  rw [firstPlace, List.map_append, List.idxOf_append_of_mem (List.mem_map.2 ⟨c, hc, hname⟩), firstPlace]

/-- Names stand in the order in which they were first registered. -/
theorem pairwise_names (calls : List (Entry ρ)) :
    (registered calls).names.Pairwise fun a b => firstPlace calls a < firstPlace calls b := by
  induction calls using List.reverseRecOn with
  | nil => exact List.Pairwise.nil
  | append_singleton calls call ih =>
    have hbefore : (registered calls).names.Pairwise fun a b =>
        firstPlace (calls ++ [call]) a < firstPlace (calls ++ [call]) b := by
      refine ih.imp_of_mem fun ha hb hlt => ?_
      rwa [firstPlace_append ha, firstPlace_append hb]
    rw [registered_append_singleton, names_register]
    by_cases hmem : call.name ∈ (registered calls).names
    · rw [if_pos hmem]
      exact hbefore
    · rw [if_neg hmem, List.pairwise_append]
      refine ⟨hbefore, List.pairwise_singleton _ _, ?_⟩
      intro a ha b hb
      rw [List.mem_singleton.1 hb, firstPlace_append ha]
      obtain ⟨c, hc, hname⟩ := mem_names_registered.1 ha
      have hlt : firstPlace calls a < calls.length := by
        rw [firstPlace, ← List.length_map (f := Entry.name)]
        exact List.idxOf_lt_length_of_mem (List.mem_map.2 ⟨c, hc, hname⟩)
      have hnew : call.name ∉ calls.map Entry.name := fun h => by
        obtain ⟨c', hc', hname'⟩ := List.mem_map.1 h
        exact hmem (mem_names_registered.2 ⟨c', hc', hname'⟩)
      have hlast : firstPlace (calls ++ [call]) call.name = calls.length := by
        rw [firstPlace, List.map_append, List.idxOf_append_of_notMem hnew]
        simp
      omega

theorem entries_eq_filterMap {entries : List (Entry ρ)} (h : (entries.map Entry.name).Nodup) :
    entries = (entries.map Entry.name).filterMap fun name => entries.find? (·.name = name) := by
  induction entries with
  | nil => rfl
  | cons e entries ih =>
    rw [List.map_cons, List.nodup_cons] at h
    have hrest : ((entries.map Entry.name).filterMap fun name => (e :: entries).find? (·.name = name)) =
        (entries.map Entry.name).filterMap fun name => entries.find? (·.name = name) := by
      refine List.filterMap_congr fun name hname => ?_
      have hne : e.name ≠ name := fun he => h.1 (he ▸ hname)
      rw [List.find?_cons_of_neg (by simpa using hne)]
    rw [List.map_cons, List.filterMap_cons_some (b := e) (by simp), hrest, ← ih h.2]

/-- **A registry is its names, each with the last registration under it.** -/
theorem entries_registered (calls : List (Entry ρ)) :
    (registered calls).entries = (registered calls).names.filterMap (latest? calls) := by
  have h := entries_eq_filterMap (nodup_names calls)
  rw [funext (find?_registered calls)] at h
  exact h

end Registry

/-! ### Searches -/

variable [Candidates ρ σ]

/-- Runtimes are asked one after the other, and none can be used. -/
inductive AllRefuse {ρ σ : Type} [Candidates ρ σ] : List ρ → σ → σ → Prop
  | nil (s : σ) : AllRefuse [] s s
  | cons {r : ρ} {rs : List ρ} {s s' s'' : σ} (h : Candidates.isAvailable r s = (false, s'))
      (hs : AllRefuse rs s' s'') : AllRefuse (r :: rs) s s''

/-- A search ends without a runtime if each refuses. -/
theorem firstAvailable_eq_none_iff_refuse {entries : List (Entry ρ)} {s s' : σ} :
    firstAvailable entries s = (none, s') ↔ AllRefuse (entries.map Entry.runtime) s s' := by
  induction entries generalizing s with
  | nil =>
    rw [firstAvailable, List.map_nil]
    constructor
    · intro h
      cases h
      exact .nil _
    · rintro ⟨⟩
      rfl
  | cons e entries ih =>
    rw [firstAvailable, List.map_cons]
    obtain ⟨⟨answer, s₁⟩, ha⟩ : ∃ a, Candidates.isAvailable e.runtime s = a := ⟨_, rfl⟩
    rw [ha]
    cases answer with
    | true =>
      constructor
      · intro h
        cases h
      · rintro ⟨⟩
        next h _ => cases ha.symm.trans h
    | false =>
      dsimp only
      rw [ih]
      constructor
      · intro h
        exact .cons ha h
      · rintro ⟨⟩
        next h hs =>
          cases ha.symm.trans h
          exact hs

/-- A search gives the runtime that can be used when all before it have refused. -/
theorem firstAvailable_eq_ok_iff {entries : List (Entry ρ)} {s s' : σ} {r : ρ} :
    firstAvailable entries s = (some r, s') ↔ ∃ before e after s₁, entries = before ++ e :: after ∧
      AllRefuse (before.map Entry.runtime) s s₁ ∧ Candidates.isAvailable e.runtime s₁ = (true, s') ∧
      e.runtime = r := by
  induction entries generalizing s with
  | nil => simp [firstAvailable]
  | cons e entries ih =>
    rw [firstAvailable]
    obtain ⟨⟨answer, s₁⟩, ha⟩ : ∃ a, Candidates.isAvailable e.runtime s = a := ⟨_, rfl⟩
    rw [ha]
    cases answer with
    | true =>
      constructor
      · intro h
        cases h
        exact ⟨[], e, entries, s, rfl, .nil s, ha, rfl⟩
      · rintro ⟨before, e', after, s₂, hsplit, hbefore, he', rfl⟩
        cases before with
        | nil =>
          cases hsplit
          cases hbefore
          cases ha.symm.trans he'
          rfl
        | cons b before =>
          cases hsplit
          cases hbefore with
          | cons h _ => cases ha.symm.trans h
    | false =>
      dsimp only
      rw [ih]
      constructor
      · rintro ⟨before, e', after, s₂, rfl, hbefore, he', hr⟩
        exact ⟨e :: before, e', after, s₂, rfl, .cons ha hbefore, he', hr⟩
      · rintro ⟨before, e', after, s₂, hsplit, hbefore, he', hr⟩
        cases before with
        | nil =>
          cases hsplit
          cases hbefore
          cases ha.symm.trans he'
        | cons b before =>
          cases hsplit
          cases hbefore with
          | cons h hs =>
            cases ha.symm.trans h
            exact ⟨before, e', after, s₂, rfl, hs, he', hr⟩

/-! ### Choosing -/

/-- What a search without a name looks at, in the order of names: last registrations that are automatic, not
deprecated and not excluded. -/
def eligible (calls : List (Entry ρ)) (excluded : List String) (s : σ) : List (Entry ρ) :=
  ((Registry.registered calls).names.filterMap (Registry.latest? calls)).filter fun e =>
    e.isAuto && !Candidates.isDeprecated s e.runtime && !excluded.contains e.name

theorem filter_candidates_registered (calls : List (Entry ρ)) (excluded : List String) (s : σ) :
    ((Registry.registered calls).candidates s).filter (fun e => !excluded.contains e.name) =
      eligible calls excluded s := by
  rw [Registry.candidates, List.filter_filter, eligible, ← Registry.entries_registered]
  refine List.filter_congr fun e _ => ?_
  rw [Bool.and_comm]

namespace Registry

/-- What registrations make of a registry. -/
structure Reference (calls : List (Entry ρ)) : Prop where
  /-- Each registered name is listed once. -/
  once : (registered calls).names.Nodup
  listed : ∀ name, name ∈ (registered calls).names ↔ ∃ call ∈ calls, call.name = name
  /-- Names stand in the order of their first registrations. -/
  order : (registered calls).names.Pairwise fun a b => firstPlace calls a < firstPlace calls b
  latest : ∀ name, (registered calls).get? name = (latest? calls name).map Entry.runtime

omit [Candidates ρ σ] in
theorem reference (calls : List (Entry ρ)) : Reference calls :=
  ⟨nodup_names calls, fun _ => mem_names_registered, pairwise_names calls, get?_registered calls⟩

end Registry

namespace Selector

/-- What a selector makes of a name that is asked for. -/
structure Forces (calls : List (Entry ρ)) (name : String) (s : σ) (outcome : Except Error ρ × σ) : Prop where
  undefined : outcome.1 = .error (.notDefined name) ↔ ∀ call ∈ calls, call.name ≠ name
  unavailable : (∃ message, outcome.1 = .error (.unavailable message)) ↔
    ∃ r, (Registry.registered calls).get? name = some r ∧ (Candidates.isAvailable r s).1 = false
  given : ∀ r, outcome.1 = .ok r ↔
    (Registry.registered calls).get? name = some r ∧ (Candidates.isAvailable r s).1 = true

/-- What a selector finds if no name is asked for. -/
structure Finds (calls : List (Entry ρ)) (excluded : List String) (s : σ) (outcome : Except Error ρ × σ) :
    Prop where
  /-- It is the first that can be used, when those before it have been asked. -/
  found : ∀ r s', outcome = (.ok r, s') ↔ ∃ before e after s₁,
    eligible calls excluded s = before ++ e :: after ∧ AllRefuse (before.map Entry.runtime) s s₁ ∧
      Candidates.isAvailable e.runtime s₁ = (true, s') ∧ e.runtime = r
  unavailable : ∀ s', (∃ message, outcome = (.error (.unavailable message), s')) ↔
    AllRefuse ((eligible calls excluded s).map Entry.runtime) s s'

theorem forced_of_unregistered {selector : Selector ρ} {name : String}
    (h : selector.registry.get? name = none) (s : σ) :
    selector.forced name s = (.error (.notDefined name), s) := by
  rw [forced, h]

theorem forced_of_refuses {selector : Selector ρ} {name : String} {r : ρ} {s s' : σ}
    (h : selector.registry.get? name = some r) (ha : Candidates.isAvailable r s = (false, s')) :
    selector.forced name s = (.error (.runtimeUnavailable (Candidates.name s' r)), s') := by
  rw [forced, h]
  dsimp only
  rw [ha]

theorem forced_of_available {selector : Selector ρ} {name : String} {r : ρ} {s s' : σ}
    (h : selector.registry.get? name = some r) (ha : Candidates.isAvailable r s = (true, s')) :
    selector.forced name s = (.ok r, s') := by
  rw [forced, h]
  dsimp only
  rw [ha]

/-- A name that is asked for is given or refused. -/
theorem forces_forced (calls : List (Entry ρ)) (override : Option String) (name : String) (s : σ) :
    Forces calls name s ((⟨Registry.registered calls, override⟩ : Selector ρ).forced name s) := by
  have hnone : (Registry.registered calls).get? name = none ↔ ∀ call ∈ calls, call.name ≠ name := by
    rw [Registry.get?_registered, Option.map_eq_none_iff, Registry.latest?_eq_none_iff]
  cases hget : (Registry.registered calls).get? name with
  | none =>
    rw [forced_of_unregistered hget]
    exact ⟨iff_of_true rfl (hnone.1 hget), by simp [hget], by simp [hget]⟩
  | some r =>
    have hdefined : ¬∀ call ∈ calls, call.name ≠ name := by
      intro h
      rw [hnone.2 h] at hget
      cases hget
    obtain ⟨⟨answer, s'⟩, ha⟩ : ∃ a, Candidates.isAvailable r s = a := ⟨_, rfl⟩
    cases answer with
    | false =>
      rw [forced_of_refuses hget ha]
      exact ⟨iff_of_false (by simp [Error.runtimeUnavailable]) hdefined,
        by simp [hget, ha, Error.runtimeUnavailable], by simp [hget, ha]⟩
    | true =>
      rw [forced_of_available hget ha]
      exact ⟨iff_of_false (by simp) hdefined, by simp [hget, ha], by simp [hget, ha]⟩

theorem detect_of_some {calls : List (Entry ρ)} {excluded : List String} {s s' : σ} {r : ρ}
    (h : firstAvailable (eligible calls excluded s) s = (some r, s')) (override : Option String) :
    (⟨Registry.registered calls, override⟩ : Selector ρ).detect excluded s = (.ok r, s') := by
  simp only [detect, filter_candidates_registered, h]

theorem detect_of_none {calls : List (Entry ρ)} {excluded : List String} {s s' : σ}
    (h : firstAvailable (eligible calls excluded s) s = (none, s')) (override : Option String) :
    (⟨Registry.registered calls, override⟩ : Selector ρ).detect excluded s =
      (.error .noRuntimeFound, s') := by
  simp only [detect, filter_candidates_registered, h]

theorem finds_detect (calls : List (Entry ρ)) (override : Option String) (excluded : List String) (s : σ) :
    Finds calls excluded s ((⟨Registry.registered calls, override⟩ : Selector ρ).detect excluded s) := by
  obtain ⟨⟨found, s₁⟩, hf⟩ : ∃ a, firstAvailable (eligible calls excluded s) s = a := ⟨_, rfl⟩
  cases found with
  | none =>
    rw [detect_of_none hf]
    refine ⟨fun r s' => ⟨?_, ?_⟩, fun s' => ⟨?_, ?_⟩⟩
    · intro h
      cases h
    · intro h
      cases hf.symm.trans (firstAvailable_eq_ok_iff.2 h)
    · rintro ⟨message, h⟩
      cases h
      exact firstAvailable_eq_none_iff_refuse.1 hf
    · intro h
      cases hf.symm.trans (firstAvailable_eq_none_iff_refuse.2 h)
      exact ⟨_, rfl⟩
  | some r =>
    rw [detect_of_some hf]
    refine ⟨fun r' s' => ⟨?_, ?_⟩, fun s' => ⟨?_, ?_⟩⟩
    · intro h
      cases h
      exact firstAvailable_eq_ok_iff.1 hf
    · intro h
      cases hf.symm.trans (firstAvailable_eq_ok_iff.2 h)
      rfl
    · rintro ⟨message, h⟩
      cases h
    · intro h
      cases hf.symm.trans (firstAvailable_eq_none_iff_refuse.2 h)

theorem bestAvailable_registered (calls : List (Entry ρ)) (override : Option String) (s : σ) :
    (Registry.registered calls).bestAvailable s =
      (((⟨Registry.registered calls, override⟩ : Selector ρ).detect [] s).1.toOption,
        ((⟨Registry.registered calls, override⟩ : Selector ρ).detect [] s).2) := by
  have hall : ((Registry.registered calls).candidates s).filter
      (fun e => !([] : List String).contains e.name) = (Registry.registered calls).candidates s :=
    List.filter_eq_self.2 (by simp)
  rw [Registry.bestAvailable, detect]
  dsimp only
  rw [hall]
  obtain ⟨⟨found, s₁⟩, hf⟩ :
    ∃ a, firstAvailable ((Registry.registered calls).candidates s) s = a := ⟨_, rfl⟩
  rw [hf]
  cases found with
  | none => rfl
  | some r => rfl

theorem select_of_blank {selector : Selector ρ} (h : selector.overrideName = none) (excluded : List String) :
    (selector.select excluded : Attempt σ ρ) = selector.detect excluded := by
  rw [select, h]

theorem overrideName_of_ne (registry : Registry ρ) {name : String} (h : name ≠ "") :
    (⟨registry, some name⟩ : Selector ρ).overrideName = some name := by
  simp [overrideName, h]

theorem overrideName_of_blank (registry : Registry ρ) {override : Option String}
    (h : override = none ∨ override = some "") :
    (⟨registry, override⟩ : Selector ρ).overrideName = none := by
  rcases h with rfl | rfl
  · rfl
  · simp [overrideName]

/-- What a selector over registrations chooses, by the name that is asked for. -/
structure Chooses (calls : List (Entry ρ)) (override : Option String) (excluded : List String) (s : σ) :
    Prop where
  /-- A name that is asked for is given or refused, and exclusions do not bear on it. -/
  forces : ∀ name, override = some name → name ≠ "" →
    Forces calls name s ((⟨Registry.registered calls, override⟩ : Selector ρ).select excluded s)
  finds : override = none ∨ override = some "" →
    Finds calls excluded s ((⟨Registry.registered calls, override⟩ : Selector ρ).select excluded s)
  /-- The registry and the selector search alike, and leave the same state. -/
  best : override = none ∨ override = some "" → (Registry.registered calls).bestAvailable s =
    (((⟨Registry.registered calls, override⟩ : Selector ρ).select [] s).1.toOption,
      ((⟨Registry.registered calls, override⟩ : Selector ρ).select [] s).2)

/-- **Registries and selectors are what their registrations say**, whatever is registered, asked for and
excluded, and however runtimes answer. -/
theorem chooses_registered (calls : List (Entry ρ)) (override : Option String) (excluded : List String)
    (s : σ) : Registry.Reference calls ∧ Chooses calls override excluded s := by
  refine ⟨Registry.reference calls, ?_, ?_, ?_⟩
  · rintro name rfl hname
    rw [select_of_override (overrideName_of_ne _ hname)]
    exact forces_forced calls _ name s
  · intro h
    rw [select_of_blank (overrideName_of_blank _ h)]
    exact finds_detect calls override excluded s
  · intro h
    rw [select_of_blank (overrideName_of_blank _ h)]
    exact bestAvailable_registered calls override s

end Selector

/-! ### Desks -/

namespace Desk

open Launch (World)

variable {ω π : Type}

theorem get?_step_of_ne {β : Type} {d : Desk ω π} {id other : RuntimeId} (h : other ≠ id)
    (f : Runtime ω π → World ω π → β × Runtime ω π × World ω π) : (d.step other f).2.get? id = d.get? id := by
  unfold step
  cases ho : d.get? other with
  | none => rfl
  | some r => simp [get?, List.getElem?_set_ne h]

theorem step_of_get? {β : Type} {d : Desk ω π} {id : RuntimeId} {r : Runtime ω π} (h : d.get? id = some r)
    (f : Runtime ω π → World ω π → β × Runtime ω π × World ω π) :
    d.step id f = (some (f r d.world).1,
      { d with world := (f r d.world).2.2, runtimes := d.runtimes.set id (f r d.world).2.1 }) := by
  unfold step
  rw [h]

theorem get?_set {d : Desk ω π} {id : RuntimeId} {r : Runtime ω π} (h : d.get? id = some r)
    (r' : Runtime ω π) (w : World ω π) :
    ({ d with world := w, runtimes := d.runtimes.set id r' } : Desk ω π).get? id = some r' := by
  have hlt : id < d.runtimes.length := (List.getElem?_eq_some_iff.mp h).1
  simp [get?, List.getElem?_set_self hlt]

/-- The runtime under an id says that it cannot be used, whenever it is asked. -/
def Shuns (id : RuntimeId) (d : Desk ω π) : Prop :=
  ∃ r, d.get? id = some r ∧ ∀ w, (r.isAvailable w).1 = false ∧ (r.isAvailable w).2.1 = r

/-- Asking any runtime leaves it so, and it is not the one that can be used. -/
theorem Shuns.isAvailable {id : RuntimeId} {d : Desk ω π} (h : d.Shuns id) (other : RuntimeId) :
    (Desk.isAvailable other d).2.Shuns id ∧ ((Desk.isAvailable other d).1 → other ≠ id) := by
  obtain ⟨r, hget, hr⟩ := h
  by_cases ho : other = id
  · subst ho
    have hstep := step_of_get? hget Runtime.isAvailable
    obtain ⟨hanswer, hsame⟩ := hr d.world
    rw [hanswer, hsame] at hstep
    unfold Desk.isAvailable
    rw [hstep]
    refine ⟨⟨r, get?_set hget r _, hr⟩, ?_⟩
    intro hfalse
    cases hfalse
  · refine ⟨⟨r, ?_, hr⟩, fun _ => ho⟩
    exact (get?_step_of_ne ho Runtime.isAvailable).trans hget

theorem Shuns.firstAvailable {id : RuntimeId} {d : Desk ω π} (h : d.Shuns id)
    (entries : List (Entry RuntimeId)) : (firstAvailable entries d).1 ≠ some id := by
  induction entries generalizing d with
  | nil =>
    rw [Bridge.firstAvailable]
    simp
  | cons e entries ih =>
    obtain ⟨hshuns, hne⟩ := h.isAvailable e.runtime
    rw [Bridge.firstAvailable]
    obtain ⟨⟨answer, d'⟩, ha⟩ : ∃ a, Candidates.isAvailable e.runtime d = a := ⟨_, rfl⟩
    have ha' : Desk.isAvailable e.runtime d = (answer, d') := ha
    rw [ha'] at hshuns hne
    rw [ha]
    cases answer with
    | true =>
      intro hsome
      exact hne rfl (Option.some.inj hsome)
    | false => exact ih hshuns

/-- A selector that is not asked for a name never chooses it. -/
theorem Shuns.select {id : RuntimeId} {d : Desk ω π} (h : d.Shuns id) {selector : Selector RuntimeId}
    (hs : selector.overrideName = none) (excluded : List String) : (selector.select excluded d).1 ≠ .ok id := by
  have hfirst := h.firstAvailable
    ((selector.registry.candidates d).filter fun e => !excluded.contains e.name)
  rw [Selector.select_of_blank hs]
  unfold Selector.detect
  dsimp only
  obtain ⟨⟨found, d'⟩, hf⟩ : ∃ a, Bridge.firstAvailable
    ((selector.registry.candidates d).filter fun e => !excluded.contains e.name) d = a := ⟨_, rfl⟩
  rw [hf] at hfirst ⊢
  cases found with
  | none => simp
  | some r =>
    intro hok
    cases hok
    exact hfirst rfl

end Desk

end EnginePipe.Bridge
