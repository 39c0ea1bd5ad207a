import EnginePipe.Bridge.Desk
import EnginePipe.Proofs.Bridge.Unstartable

/-!
# What is left running

A process that is started for a context either belongs to that context, and is closed with it, or stands in
the slot of a manager, and is closed when its runtime is shut down.  So where only runtimes of a registry are
used, and all of them are shut down in the end, nothing that was started meanwhile is left.

* `Pool.IsClosed`: a process whose streams were closed and whose engine was ended.
* `Runtime.withContext_started`: what is done in a context of its own leaves a new process closed or in the slot.
* `Desk.asked_select`: choosing a runtime starts nothing.
* `Desk.table_induction`: what every registration keeps holds of a new registry.
* `Desk.shutdownAll_closed`: **shutting all runtimes down closes what they keep**.
-/

namespace EnginePipe

open Channel (Peer EngineProcess)
open Launch (Call Handle Launcher Manager Pool ProcessId World)

variable {ω π α : Type}

/-! ### Closed processes -/

namespace Launch.Pool

variable [Peer π] {pool : Pool π} {id other : ProcessId}

/-- A process that was closed, if it is there at all. -/
def IsClosed (pool : Pool π) (id : ProcessId) : Prop :=
  ∀ p, pool.get? id = some p → ∃ q : EngineProcess π, p = q.close

theorem IsClosed.isAlive (h : pool.IsClosed id) : pool.isAlive id = false := by
  unfold Pool.isAlive
  cases hp : pool.get? id with
  | none => rfl
  | some p =>
    obtain ⟨q, rfl⟩ := h p hp
    exact q.isAlive_close

theorem isClosed_of_le (h : pool.processes.length ≤ id) : pool.IsClosed id := by
  intro p hp
  rw [get?, List.getElem?_eq_none h] at hp
  cases hp

theorem isClosed_close_self (pool : Pool π) (id : ProcessId) : (pool.update id EngineProcess.close).IsClosed id := by
  intro p hp
  rw [get?_update_self] at hp
  obtain ⟨q, -, hq⟩ := Option.map_eq_some_iff.1 hp
  exact ⟨q, hq.symm⟩

theorem IsClosed.close (h : pool.IsClosed id) (other : ProcessId) :
    (pool.update other EngineProcess.close).IsClosed id := by
  by_cases ho : id = other
  · subst ho
    exact isClosed_close_self pool id
  · intro p hp
    rw [get?_update_of_ne ho] at hp
    exact h p hp

end Launch.Pool

/-! ### Managers -/

/-- The process of a handle that serves one context alone. -/
def Launch.Handle.owned? : Handle → Option ProcessId
  | .shared _ => none
  | .owned id => some id

namespace Launch.Manager

variable [Peer π]

omit [Peer π] in
theorem launch_started (launcher : Launcher ω π) (m : Manager) (w : World ω π) {id : ProcessId}
    (hid : w.pool.processes.length ≤ id) (hnew : id < (launch launcher (m, w)).2.2.pool.processes.length) :
    (launch launcher (m, w)).1 = .ok id := by
  cases hf : m.failure with
  | some reason =>
    rw [launch_of_failure hf] at hnew
    exact absurd hnew (Nat.not_lt.2 hid)
  | none =>
    cases hl : launcher m.descriptor w.host with
    | mk result host =>
      cases result with
      | ok p =>
        rw [launch_of_ok hf hl] at hnew ⊢
        have hle : id ≤ w.pool.processes.length := Nat.le_of_lt_succ (by simpa [Pool.start] using hnew)
        rw [Nat.le_antisymm hid hle]
      | error e =>
        rw [launch_of_error hf hl] at hnew
        exact absurd hnew (Nat.not_lt.2 hid)

/-- A process that is started for a context stands in the slot or belongs to the context. -/
theorem start_started (launcher : Launcher ω π) (m : Manager) (w : World ω π) {id : ProcessId}
    (hid : w.pool.processes.length ≤ id) (hnew : id < (start launcher (m, w)).2.2.pool.processes.length) :
    (start launcher (m, w)).2.1.slot = some id ∨
      ∃ handle, (start launcher (m, w)).1 = .ok handle ∧ handle.owned? = some id := by
  cases hs : m.descriptor.isShared with
  | false =>
    rw [start_of_owned hs] at hnew ⊢
    refine Or.inr ⟨.owned id, ?_, rfl⟩
    rw [launch_started launcher m w hid hnew]
    rfl
  | true =>
    rw [start_of_shared hs] at hnew ⊢
    dsimp only at hnew ⊢
    cases hc : m.current? w with
    | some current =>
      obtain ⟨hslot, halive⟩ := current?_eq_some_iff.mp hc
      rw [attach_of_alive hslot halive] at hnew
      exact absurd hnew (Nat.not_lt.2 hid)
    | none =>
      have hlaunched := launch_started launcher m w hid
      rw [attach_of_none hc, replace_eq] at hnew ⊢
      obtain ⟨⟨result, m', w'⟩, hl⟩ : ∃ a, launch launcher (m, w) = a := ⟨_, rfl⟩
      rw [hl] at hnew hlaunched ⊢
      cases result with
      | ok fresh =>
        cases hlaunched hnew
        exact Or.inl rfl
      | error e => cases hlaunched hnew

end Launch.Manager

/-! ### Contexts -/

namespace Context

/-- The process that a context has to itself. -/
def owned? (c : Context PipeSession) : Option ProcessId := c.session.bind fun session => session.handle.owned?

variable [Peer π] {c : Context PipeSession} {id : ProcessId}

theorem release_owned (h : c.owned? = some id) (w : World ω π) :
    (c.release w).2.pool.IsClosed id := by
  obtain ⟨session, hs, ho⟩ := Option.bind_eq_some_iff.1 h
  unfold release
  rw [hs]
  dsimp only
  show (session.close w).2.pool.IsClosed id
  unfold PipeSession.close
  cases hh : session.handle with
  | shared other =>
    rw [hh] at ho
    cases ho
  | owned other =>
    rw [hh] at ho
    cases ho
    exact Pool.isClosed_close_self w.pool id

/-- A process belongs to the context that was opened, or is closed if none was. -/
def Settles (id : ProcessId) : Except Error (Context PipeSession) → World ω π → Prop
  | .ok c, _ => c.owned? = some id
  | .error _, w => w.pool.IsClosed id

theorem settles_start {session : PipeSession} (h : session.handle.owned? = some id) (runtime preamble : String)
    (w : World ω π) : Settles id (start runtime session preamble w).1 (start runtime session preamble w).2 := by
  obtain ⟨⟨result, w'⟩, hr⟩ :
    ∃ r, evaluateString ⟨Session.id (World ω π) session, runtime, some session⟩ preamble w = r := ⟨_, rfl⟩
  cases result with
  | ok v =>
    rw [start_of_ok hr]
    exact h
  | error e =>
    rw [start_of_error hr]
    exact release_owned (c := ⟨_, runtime, some session⟩) h w'

/-- When something was done in a context and it is closed, its own process is closed. -/
theorem finish_owned (h : c.owned? = some id) (op : Context PipeSession → Attempt (World ω π) α)
    (w : World ω π) : (c.finish (lift op) w).2.pool.IsClosed id := by
  have hreleased := release_owned h (op c w).2
  unfold finish lift
  dsimp only
  split <;> exact hreleased

end Context

/-! ### Runtimes -/

namespace Bridge

section

variable [Peer π]

namespace External

/-- The process that serves all contexts. -/
def slot? (x : External ω π) : Option ProcessId := x.probe.manager?.bind Manager.slot

theorem start_started (x : External ω π) (w : World ω π) {id : ProcessId} (hid : w.pool.processes.length ≤ id)
    (hnew : id < (start (x, w)).2.2.pool.processes.length) :
    (start (x, w)).2.1.slot? = some id ∨ ∃ handle, (start (x, w)).1 = .ok handle ∧ handle.owned? = some id := by
  unfold start at hnew ⊢
  dsimp only at hnew ⊢
  cases hp : x.probe with
  | found launcher m =>
    rw [hp] at hnew
    exact Manager.start_started launcher m w hid hnew
  | _ =>
    rw [hp] at hnew
    exact absurd hnew (Nat.not_lt.2 hid)

theorem openContext_started (preamble : String) (x : External ω π) (w : World ω π) {id : ProcessId}
    (hid : w.pool.processes.length ≤ id)
    (hnew : id < (openContext preamble (x, w)).2.2.pool.processes.length) :
    (openContext preamble (x, w)).2.1.slot? = some id ∨
      Context.Settles id (openContext preamble (x, w)).1 (openContext preamble (x, w)).2.2 := by
  have hstarted := start_started x w.takeId.2 hid
  unfold openContext at hnew ⊢
  dsimp only at hnew ⊢
  obtain ⟨⟨result, x', w'⟩, hs⟩ : ∃ a, start (x, w.takeId.2) = a := ⟨_, rfl⟩
  rw [hs] at hnew hstarted ⊢
  cases result with
  | error e =>
    rcases hstarted hnew with hslot | ⟨handle, hok, -⟩
    · exact Or.inl hslot
    · cases hok
  | ok handle =>
    dsimp only at hnew hstarted ⊢
    rw [(Context.serves_start _ _ preamble w').length] at hnew
    rcases hstarted hnew with hslot | ⟨handle', hok, howned⟩
    · exact Or.inl hslot
    · cases hok
      refine Or.inr (Context.settles_start ?_ _ preamble w')
      exact howned

theorem compile_started (preamble : String) (x : External ω π) (w : World ω π) {id : ProcessId}
    (hid : w.pool.processes.length ≤ id) (hnew : id < (compile preamble (x, w)).2.2.pool.processes.length) :
    (compile preamble (x, w)).2.1.slot? = some id ∨
      Context.Settles id (compile preamble (x, w)).1 (compile preamble (x, w)).2.2 := by
  have hprobed := x.pool_probed w
  unfold compile at hnew ⊢
  obtain ⟨⟨x', w'⟩, hp⟩ : ∃ a, x.probed w = a := ⟨_, rfl⟩
  rw [hp] at hprobed
  dsimp only at hprobed hnew ⊢
  rw [hp] at hnew ⊢
  dsimp only at hnew ⊢
  rw [← hprobed] at hid
  split at hnew
  · exact openContext_started preamble x' w' hid hnew
  · exact absurd hnew (Nat.not_lt.2 hid)

/-! #### Names -/

theorem descriptor_start (x : External ω π) (w : World ω π) : (start (x, w)).2.1.descriptor = x.descriptor := by
  unfold start
  dsimp only
  split <;> rfl

omit [Peer π] in
theorem descriptor_probed (x : External ω π) (w : World ω π) : (x.probed w).1.descriptor = x.descriptor := by
  unfold probed
  split <;> rfl

theorem descriptor_compile (preamble : String) (x : External ω π) (w : World ω π) :
    (compile preamble (x, w)).2.1.descriptor = x.descriptor := by
  have hprobed := x.descriptor_probed w
  have hstart := descriptor_start (x.probed w).1 (x.probed w).2.takeId.2
  unfold compile openContext
  dsimp only
  split
  · split
    · next hs =>
      rw [hs] at hstart
      exact hstart.trans hprobed
    · next hs =>
      rw [hs] at hstart
      exact hstart.trans hprobed
  · exact hprobed

end External

namespace Runtime

/-- The process that serves all contexts. -/
def slot? (r : Runtime ω π) : Option ProcessId := r.manager?.bind Manager.slot

theorem compile_started (preamble : String) (r : Runtime ω π) (w : World ω π) {id : ProcessId}
    (hid : w.pool.processes.length ≤ id) (hnew : id < (compile preamble (r, w)).2.2.pool.processes.length) :
    (compile preamble (r, w)).2.1.slot? = some id ∨
      Context.Settles id (compile preamble (r, w)).1 (compile preamble (r, w)).2.2 := by
  cases r with
  | external x => exact External.compile_started preamble x w hid hnew
  | disabled => exact absurd hnew (Nat.not_lt.2 hid)

theorem name_compile (preamble : String) (r : Runtime ω π) (w : World ω π) :
    (compile preamble (r, w)).2.1.name = r.name := by
  cases r with
  | external x => exact congrArg Descriptor.name (x.descriptor_compile preamble w)
  | disabled => rfl

/-- **What is done in a context of its own leaves a new process closed or in the slot.** -/
theorem withContext_started {op : Context PipeSession → Attempt (World ω π) α}
    (hop : ∀ c (w : World ω π), w.Serves (op c w).2) (preamble : String) (r : Runtime ω π) (w : World ω π)
    {id : ProcessId} (hid : w.pool.processes.length ≤ id) :
    (withContext preamble (Context.lift op) (r, w)).2.1.slot? = some id ∨
      (withContext preamble (Context.lift op) (r, w)).2.2.pool.IsClosed id := by
  have hstarted := compile_started preamble r w hid
  unfold withContext
  obtain ⟨⟨result, r', w'⟩, hc⟩ : ∃ a, compile preamble (r, w) = a := ⟨_, rfl⟩
  rw [hc] at hstarted
  cases result with
  | error e =>
    rw [Attempt.bind_apply_of_error hc]
    by_cases hnew : id < w'.pool.processes.length
    · exact hstarted hnew
    · exact Or.inr (Pool.isClosed_of_le (Nat.le_of_not_lt hnew))
  | ok c =>
    rw [Attempt.bind_apply_of_ok hc]
    have hserves : w'.Serves (c.finish (Context.lift op) w').2 := c.serves_finish (fun s => hop s.1 s.2) w'
    by_cases hnew : id < w'.pool.processes.length
    · rcases hstarted hnew with hslot | howned
      · exact Or.inl hslot
      · exact Or.inr (Context.finish_owned howned op w')
    · refine Or.inr (Pool.isClosed_of_le ?_)
      exact Nat.le_trans (Nat.le_of_eq hserves.length) (Nat.le_of_not_lt hnew)

theorem name_withContext (preamble : String) (body : Attempt (Context PipeSession × World ω π) α)
    (r : Runtime ω π) (w : World ω π) : (withContext preamble body (r, w)).2.1.name = r.name := by
  have hname := name_compile preamble r w
  unfold withContext
  obtain ⟨⟨result, r', w'⟩, hc⟩ : ∃ a, compile preamble (r, w) = a := ⟨_, rfl⟩
  rw [hc] at hname
  cases result with
  | error e =>
    rw [Attempt.bind_apply_of_error hc]
    exact hname
  | ok c =>
    rw [Attempt.bind_apply_of_ok hc]
    exact hname

/-- Shutting down closes the process in the slot and nothing else. -/
theorem pool_shutdown (r : Runtime ω π) (w : World ω π) : (r.shutdown w).2.pool =
    r.slot?.elim w.pool fun id => w.pool.update id EngineProcess.close := by
  cases r with
  | external x =>
    obtain ⟨descriptor, locator, spawn, probe⟩ := x
    cases probe with
    | found launcher m =>
      obtain ⟨d, slot, failure, launches, started⟩ := m
      cases slot <;> rfl
    | _ => rfl
  | disabled => rfl

end Runtime

end

/-! ### Choosing -/

section

variable {ρ σ : Type} [Candidates ρ σ]

theorem mem_of_firstAvailable {entries : List (Entry ρ)} {s s' : σ} {r : ρ}
    (h : firstAvailable entries s = (some r, s')) : r ∈ entries.map Entry.runtime := by
  induction entries generalizing s with
  | nil => cases h
  | cons e entries ih =>
    rw [firstAvailable] at h
    split at h
    · cases h
      exact List.mem_cons_self
    · exact List.mem_cons_of_mem _ (ih h)

theorem Selector.mem_of_forced {selector : Selector ρ} {name : String} {s s' : σ} {r : ρ}
    (h : selector.forced name s = (.ok r, s')) : r ∈ selector.registry.runtimes := by
  unfold forced at h
  split at h
  · cases h
  · next found hget =>
    obtain ⟨e, he, rfl⟩ := Option.map_eq_some_iff.1 hget
    split at h
    · cases h
      exact List.mem_map_of_mem (List.mem_of_find?_eq_some he)
    · cases h

theorem Selector.mem_of_detect {selector : Selector ρ} {excluded : List String} {s s' : σ} {r : ρ}
    (h : selector.detect excluded s = (.ok r, s')) : r ∈ selector.registry.runtimes := by
  unfold detect at h
  dsimp only at h
  split at h
  · next hfirst =>
    cases h
    obtain ⟨e, he, rfl⟩ := List.mem_map.1 (mem_of_firstAvailable hfirst)
    exact List.mem_map_of_mem (List.mem_filter.1 (List.mem_filter.1 he).1).1
  · cases h

/-- What is chosen was registered. -/
theorem Selector.mem_of_select {selector : Selector ρ} {excluded : List String} {s s' : σ} {r : ρ}
    (h : selector.select excluded s = (.ok r, s')) : r ∈ selector.registry.runtimes := by
  cases ho : selector.overrideName with
  | some name =>
    rw [select_of_override ho] at h
    exact mem_of_forced h
  | none =>
    rw [select_of_blank ho] at h
    exact mem_of_detect h

end

theorem Registry.mem_insert {ρ : Type} {entry e : Entry ρ} {entries : List (Entry ρ)}
    (h : e ∈ Registry.insert entry entries) : e = entry ∨ e ∈ entries := by
  induction entries with
  | nil => exact Or.inl (List.mem_singleton.1 h)
  | cons f entries ih =>
    rw [Registry.insert] at h
    split at h
    · rcases List.mem_cons.1 h with rfl | h
      · exact Or.inl rfl
      · exact Or.inr (List.mem_cons_of_mem f h)
    · rcases List.mem_cons.1 h with rfl | h
      · exact Or.inr List.mem_cons_self
      · rcases ih h with rfl | h
        · exact Or.inl rfl
        · exact Or.inr (List.mem_cons_of_mem f h)

namespace Desk

variable {d d' d'' : Desk ω π}

/-- In between, runtimes were only asked whether they can be used. -/
structure Asked (d d' : Desk ω π) : Prop where
  pool : d'.world.pool = d.world.pool
  name : ∀ id, (d'.get? id).map Runtime.name = (d.get? id).map Runtime.name

theorem Asked.refl (d : Desk ω π) : d.Asked d := ⟨rfl, fun _ => rfl⟩

theorem Asked.trans (h : d.Asked d') (h' : d'.Asked d'') : d.Asked d'' :=
  ⟨h'.pool.trans h.pool, fun id => (h'.name id).trans (h.name id)⟩

/-- A runtime is there whose name is there. -/
theorem Asked.exists_get? (h : d.Asked d') {id : RuntimeId} {r : Runtime ω π} (hr : d.get? id = some r) :
    ∃ r', d'.get? id = some r' ∧ r'.name = r.name := by
  have hname := h.name id
  rw [hr] at hname
  exact Option.map_eq_some_iff.1 hname

theorem asked_isAvailable (id : RuntimeId) (d : Desk ω π) : d.Asked (isAvailable id d).2 := by
  unfold isAvailable
  dsimp only
  cases hr : d.get? id with
  | none =>
    unfold step
    rw [hr]
    exact .refl d
  | some r =>
    rw [step_of_get? hr]
    have hpool : (r.isAvailable d.world).2.2.pool = d.world.pool := by
      cases r with
      | external x => exact x.pool_probed d.world
      | disabled => rfl
    have hname : (r.isAvailable d.world).2.1.name = r.name := by
      cases r with
      | external x => exact congrArg Descriptor.name (x.descriptor_probed d.world)
      | disabled => rfl
    refine ⟨hpool, fun other => ?_⟩
    by_cases ho : id = other
    · subst ho
      rw [get?_set hr, hr, Option.map_some, Option.map_some, hname]
    · have hother := get?_step_of_ne ho Runtime.isAvailable (d := d)
      rw [step_of_get? hr] at hother
      exact congrArg (Option.map Runtime.name) hother

theorem asked_firstAvailable (entries : List (Entry RuntimeId)) (d : Desk ω π) :
    d.Asked (firstAvailable entries d).2 := by
  induction entries generalizing d with
  | nil => exact .refl d
  | cons e entries ih =>
    have hasked := asked_isAvailable e.runtime d
    rw [firstAvailable]
    obtain ⟨⟨answer, d'⟩, ha⟩ : ∃ a, Candidates.isAvailable e.runtime d = a := ⟨_, rfl⟩
    have ha' : isAvailable e.runtime d = (answer, d') := ha
    rw [ha'] at hasked
    rw [ha]
    cases answer with
    | true => exact hasked
    | false => exact hasked.trans (ih d')

theorem asked_forced (selector : Selector RuntimeId) (name : String) (d : Desk ω π) :
    d.Asked (selector.forced name d).2 := by
  unfold Selector.forced
  split
  · exact .refl d
  · next id _ =>
    have hasked := asked_isAvailable id d
    obtain ⟨⟨answer, d'⟩, ha⟩ : ∃ a, Candidates.isAvailable id d = a := ⟨_, rfl⟩
    have ha' : isAvailable id d = (answer, d') := ha
    rw [ha'] at hasked
    rw [ha]
    cases answer <;> exact hasked

theorem asked_detect (selector : Selector RuntimeId) (excluded : List String) (d : Desk ω π) :
    d.Asked (selector.detect excluded d).2 := by
  have hasked := asked_firstAvailable
    ((selector.registry.candidates d).filter fun e => !excluded.contains e.name) d
  unfold Selector.detect
  dsimp only
  obtain ⟨⟨found, d'⟩, hf⟩ : ∃ a, firstAvailable
    ((selector.registry.candidates d).filter fun e => !excluded.contains e.name) d = a := ⟨_, rfl⟩
  rw [hf] at hasked ⊢
  cases found <;> exact hasked

/-- Choosing a runtime starts nothing and leaves the names as they are. -/
theorem asked_select (selector : Selector RuntimeId) (excluded : List String) (d : Desk ω π) :
    d.Asked (selector.select excluded d).2 := by
  cases ho : selector.overrideName with
  | some name =>
    rw [Selector.select_of_override ho]
    exact asked_forced selector name d
  | none =>
    rw [Selector.select_of_blank ho]
    exact asked_detect selector excluded d

/-! ### Making runtimes -/

theorem length_enroll (state : Registry RuntimeId × Desk ω π) (r : Registration ω π) :
    (enroll state r).2.runtimes.length = state.2.runtimes.length + 1 := by
  simp [enroll, make]

/-- What is registered after one more registration. -/
theorem mem_runtimes_enroll {state : Registry RuntimeId × Desk ω π} {r : Registration ω π} {id : RuntimeId}
    (h : id ∈ (enroll state r).1.runtimes) : id = state.2.runtimes.length ∨ id ∈ state.1.runtimes := by
  obtain ⟨e, he, rfl⟩ := List.mem_map.1 h
  rcases Registry.mem_insert he with rfl | he
  · exact Or.inl rfl
  · exact Or.inr (List.mem_map_of_mem he)

/-- What holds before anything is registered and is kept by each registration holds of every new registry. -/
theorem table_induction {P : Registry RuntimeId × Desk ω π → Prop} (hempty : P (.empty, d))
    (henroll : ∀ state r, P state → P (enroll state r)) (registrations : List (Registration ω π)) :
    P (d.table registrations) :=
  List.foldlRecOn registrations enroll hempty fun state h r _ => henroll state r h

/-- New runtimes leave the world alone, and all that is registered is there. -/
theorem table_spec (registrations : List (Registration ω π)) (d : Desk ω π) :
    (d.table registrations).2.world = d.world ∧
      ∀ id ∈ (d.table registrations).1.runtimes, ∃ r, (d.table registrations).2.get? id = some r := by
  have hthere : (d.table registrations).2.world = d.world ∧
      ∀ id ∈ (d.table registrations).1.runtimes, id < (d.table registrations).2.runtimes.length := by
    refine table_induction (P := fun state => state.2.world = d.world ∧
      ∀ id ∈ state.1.runtimes, id < state.2.runtimes.length) ⟨rfl, fun _ hid => absurd hid List.not_mem_nil⟩ ?_ _
    rintro state r ⟨hworld, hlt⟩
    refine ⟨hworld, fun id hid => ?_⟩
    rw [length_enroll]
    rcases mem_runtimes_enroll hid with rfl | hid
    · exact Nat.lt_succ_self _
    · exact Nat.lt_succ_of_lt (hlt id hid)
  exact ⟨hthere.1, fun id hid => ⟨_, List.getElem?_eq_getElem (hthere.2 id hid)⟩⟩

/-- The runtimes of a new registry are new. -/
theorem le_of_mem_table {registrations : List (Registration ω π)} {id : RuntimeId}
    (h : id ∈ (d.table registrations).1.runtimes) : d.runtimes.length ≤ id := by
  have hnew : d.runtimes.length ≤ (d.table registrations).2.runtimes.length ∧
      ∀ id ∈ (d.table registrations).1.runtimes, d.runtimes.length ≤ id := by
    refine table_induction (P := fun state => d.runtimes.length ≤ state.2.runtimes.length ∧
      ∀ id ∈ state.1.runtimes, d.runtimes.length ≤ id) ⟨Nat.le_refl _, fun _ hid => absurd hid List.not_mem_nil⟩ ?_ _
    rintro state r ⟨hlength, hle⟩
    rw [length_enroll]
    refine ⟨Nat.le_succ_of_le hlength, fun id hid => ?_⟩
    rcases mem_runtimes_enroll hid with rfl | hid
    · exact hlength
    · exact hle id hid
  exact hnew.2 id h

/-! ### Shutting down -/

variable [Peer π]

/-- Every process from the `n`th on is closed, or stands in the slot of one of these runtimes. -/
def Owes (ids : List RuntimeId) (n : Nat) (d : Desk ω π) : Prop :=
  ∀ p, n ≤ p → d.world.pool.IsClosed p ∨ ∃ id ∈ ids, ∃ r, d.get? id = some r ∧ r.slot? = some p

variable {ids : List RuntimeId} {n : Nat}

theorem owes_of_length (d : Desk ω π) : d.Owes ids d.world.pool.processes.length :=
  fun _ hp => Or.inl (Pool.isClosed_of_le hp)

theorem Asked.owes (h : d.Asked d') : d'.Owes ids d.world.pool.processes.length := by
  rw [← h.pool]
  exact d'.owes_of_length

/-- A runtime that was shut down keeps nothing. -/
theorem Owes.shutdown {id : RuntimeId} (h : d.Owes (id :: ids) n) : (d.shutdown id).Owes ids n := by
  intro p hp
  unfold Desk.shutdown
  cases hr : d.get? id with
  | none =>
    unfold step
    rw [hr]
    rcases h p hp with hclosed | ⟨other, ho, r', hr', hslot⟩
    · exact Or.inl hclosed
    · rcases List.mem_cons.1 ho with rfl | ho
      · cases hr.symm.trans hr'
      · exact Or.inr ⟨other, ho, r', hr', hslot⟩
  | some r =>
    have hpool := r.pool_shutdown d.world
    have hkept : d.world.pool.IsClosed p → (r.shutdown d.world).2.pool.IsClosed p := by
      intro hclosed
      rw [hpool]
      cases r.slot? with
      | none => exact hclosed
      | some q => exact hclosed.close q
    have hended : r.slot? = some p → (r.shutdown d.world).2.pool.IsClosed p := by
      intro hslot
      rw [hpool, hslot]
      exact Pool.isClosed_close_self _ p
    rcases h p hp with hclosed | ⟨other, ho, r', hr', hslot⟩
    · rw [step_of_get? hr]
      exact Or.inl (hkept hclosed)
    · by_cases hother : id = other
      · subst hother
        cases hr.symm.trans hr'
        rw [step_of_get? hr]
        exact Or.inl (hended hslot)
      · refine Or.inr ⟨other, (List.mem_cons.1 ho).resolve_left (Ne.symm hother), r', ?_, hslot⟩
        exact (get?_step_of_ne hother _).trans hr'

/-- **Shutting all runtimes down closes what they keep.** -/
theorem shutdownAll_closed {registry : Registry RuntimeId} (h : d.Owes registry.runtimes n) {p : ProcessId}
    (hp : n ≤ p) : (d.shutdownAll registry).world.pool.IsClosed p := by
  have hfold : ∀ (ids : List RuntimeId) (d : Desk ω π), d.Owes ids n → (ids.foldl shutdown d).Owes [] n := by
    intro ids
    induction ids with
    | nil => exact fun d h => h
    | cons id ids ih => exact fun d h => ih (d.shutdown id) h.shutdown
  rcases hfold registry.runtimes d h p hp with hclosed | ⟨id, hid, _⟩
  · exact hclosed
  · cases hid

end Desk

end Bridge

end EnginePipe
