import EnginePipe.Channel.ScriptedSink
import EnginePipe.Launch.Contention
import Mathlib.Data.List.Induction

/-!
# Contending for the slot

Threads attach to one manager, reset it and shut it down, and no lock is held between the two steps of a
reset or of a shutdown.  What keeps a fresh process safe from an old reset is that processes are numbered as
they are started: what a reset has read stays the same process, and a number that has left the slot does not
come back.

* `Contention.attaches`: attaching gives the living process, or starts exactly one.
* `Contention.launches_run`: over a run, as many are started as are needed.
* `Contention.Gone.run`: **what has left the slot is not handed out again**.
* `Contention.exists_beginning`: whatever is pending has read the slot at its own first step.
* `Contention.ends`: **finishing ends the process of that first step and touches no other**.
* `Contention.spawn_or_attach`: all of this, of turns in any order.
* `Contention.reset_eq`, `Contention.shutdown_eq`: without turns in between it is resetting and shutting down.
-/

namespace EnginePipe.Channel

theorem Ending.isAlive_apply {π : Type} [Peer π] (ending : Ending) (p : EngineProcess π) :
    (ending.apply p).isAlive = false := by
  cases ending <;> rfl

end EnginePipe.Channel

namespace EnginePipe.Launch

open Channel (Peer EngineProcess)

variable {ω π : Type}

/-! ### Pools -/

namespace Pool

@[simp] theorem length_update (pool : Pool π) (id : ProcessId) (f : EngineProcess π → EngineProcess π) :
    (pool.update id f).processes.length = pool.processes.length := by
  simp [update]

@[simp] theorem length_act {α : Type} [Peer π] (pool : Pool π) (id : ProcessId)
    (x : Attempt (EngineProcess π) α) : (act id x pool).2.processes.length = pool.processes.length := by
  unfold act
  split
  · rfl
  · simp

theorem get?_update_self (pool : Pool π) (id : ProcessId) (f : EngineProcess π → EngineProcess π) :
    (pool.update id f).get? id = (pool.get? id).map f := by
  simp [update, get?]

theorem exists_get?_of_lt {pool : Pool π} {id : ProcessId} (h : id < pool.processes.length) :
    ∃ p, pool.get? id = some p := ⟨pool.processes[id], List.getElem?_eq_getElem h⟩

end Pool

/-! ### Launching -/

namespace Manager

variable {launcher : Launcher ω π} {m : Manager} {w : World ω π}

@[simp] theorem slot_noteFailure (m : Manager) (e : Error) : (m.noteFailure e).slot = m.slot := by
  cases e <;> rfl

@[simp] theorem launches_noteFailure (m : Manager) (e : Error) :
    (m.noteFailure e).launches = m.launches := by
  cases e <;> rfl

/-- The only failures that are kept are those to start the engine. -/
theorem failure_noteFailure (h : m.failure = none) (e : Error) (reason : String) :
    (m.noteFailure e).failure = some reason ↔ ∃ runtime, e = .spawnFailed runtime reason := by
  cases e with
  | spawnFailed runtime given => simp [noteFailure]
  | _ => simp [noteFailure, h]

theorem launch_of_ok (hf : m.failure = none) {p : EngineProcess π} {host : ω}
    (hl : launcher m.descriptor w.host = (.ok p, host)) :
    launch launcher (m, w) = (.ok w.pool.processes.length,
      { m with launches := m.launches + 1, started := m.started ++ [w.pool.processes.length] },
      { w with host, pool := (w.pool.start p).2 }) := by
  simp [launch, hf, hl, Pool.start]

theorem launch_of_error (hf : m.failure = none) {e : Error} {host : ω}
    (hl : launcher m.descriptor w.host = (.error e, host)) :
    launch launcher (m, w) =
      (.error e, ({ m with launches := m.launches + 1 }).noteFailure e, { w with host }) := by
  simp [launch, hf, hl]

variable [Peer π]

theorem current?_eq_some_iff {id : ProcessId} :
    m.current? w = some id ↔ m.slot = some id ∧ w.pool.isAlive id := by
  rw [current?, Option.filter_eq_some_iff]

theorem attach_of_none (h : m.current? w = none) :
    attach launcher (m, w) = replace launcher (m, w) := by
  simp [attach, h]

end Manager

theorem Turn.eq_attach_or (turn : Turn π) : turn = .attach ∨ turn.isAttach = false := by
  cases turn with
  | attach => exact .inl rfl
  | _ => exact .inr rfl

namespace Contention

variable [Peer π] {launcher : Launcher ω π} {s : Contention ω π}

omit [Peer π] in
@[simp] theorem start_begun (descriptor : Descriptor) (world : World ω π) :
    (start descriptor world).begun = [] := rfl

/-! ### Attaching -/

theorem living?_eq_some_iff {id : ProcessId} :
    s.living? = some id ↔ s.manager.slot = some id ∧ s.world.pool.isAlive id :=
  Manager.current?_eq_some_iff

theorem attached_of_living {id : ProcessId} (h : s.living? = some id) :
    s.attached launcher = (.ok id, s.manager, s.world) := by
  obtain ⟨hslot, halive⟩ := living?_eq_some_iff.mp h
  exact Manager.attach_of_alive hslot halive launcher

theorem attached_of_failure (h : s.living? = none) {reason : String} (hf : s.manager.failure = some reason) :
    s.attached launcher =
      (.error (.spawnFailed s.manager.descriptor.name reason), s.manager, s.world) := by
  rw [attached, Manager.attach_of_none h]
  exact Attempt.bind_apply_of_error (Manager.launch_of_failure hf s.world launcher) _

theorem attached_of_ok (h : s.living? = none) (hf : s.manager.failure = none) {p : EngineProcess π} {host : ω}
    (hl : launcher s.manager.descriptor s.world.host = (.ok p, host)) :
    s.attached launcher = (.ok s.world.pool.processes.length,
      { s.manager with
        slot := some s.world.pool.processes.length
        launches := s.manager.launches + 1
        started := s.manager.started ++ [s.world.pool.processes.length] },
      { s.world with host, pool := (s.world.pool.start p).2 }) := by
  rw [attached, Manager.attach_of_none h, Manager.replace,
    Attempt.bind_apply_of_ok (Manager.launch_of_ok hf hl)]
  rfl

theorem attached_of_error (h : s.living? = none) (hf : s.manager.failure = none) {e : Error} {host : ω}
    (hl : launcher s.manager.descriptor s.world.host = (.error e, host)) :
    s.attached launcher = (.error e,
      ({ s.manager with launches := s.manager.launches + 1 }).noteFailure e, { s.world with host }) := by
  rw [attached, Manager.attach_of_none h]
  exact Attempt.bind_apply_of_error (Manager.launch_of_error hf hl) _

/-- Attaching calls the launcher once.  The process that it gives is a new one and stands in the slot;
an error leaves the slot and the processes alone. -/
structure Launches (launcher : Launcher ω π) (s : Contention ω π) : Prop where
  once : (s.step launcher .attach).manager.launches = s.manager.launches + 1
  host : (s.step launcher .attach).world.host = (launcher s.manager.descriptor s.world.host).2
  ok : ∀ p, (launcher s.manager.descriptor s.world.host).1 = .ok p →
    (s.attached launcher).1 = .ok s.world.pool.processes.length ∧
    (s.step launcher .attach).manager.slot = some s.world.pool.processes.length ∧
    (s.step launcher .attach).manager.failure = none ∧
    (s.step launcher .attach).world.pool.processes = s.world.pool.processes ++ [p]
  error : ∀ e, (launcher s.manager.descriptor s.world.host).1 = .error e →
    (s.attached launcher).1 = .error e ∧
    (s.step launcher .attach).manager.slot = s.manager.slot ∧
    (∀ reason, (s.step launcher .attach).manager.failure = some reason ↔
      ∃ runtime, e = .spawnFailed runtime reason) ∧
    (s.step launcher .attach).world.pool = s.world.pool

/-- What attaching does: it gives the living process in the slot; if there is none it calls the launcher once,
unless it is known that the engine cannot be started. -/
structure Attaches (launcher : Launcher ω π) (s : Contention ω π) : Prop where
  living : ∀ id, s.living? = some id → (s.attached launcher).1 = .ok id ∧ s.step launcher .attach = s
  barred : s.living? = none → ∀ reason, s.manager.failure = some reason →
    (s.attached launcher).1 = .error (.spawnFailed s.manager.descriptor.name reason) ∧
      s.step launcher .attach = s
  launches : s.living? = none → s.manager.failure = none → s.Launches launcher

theorem step_attach {result : Except Error ProcessId} {m : Manager} {w : World ω π}
    (h : s.attached launcher = (result, m, w)) :
    (s.attached launcher).1 = result ∧ s.step launcher .attach = { s with manager := m, world := w } := by
  refine ⟨by rw [h], ?_⟩
  simp [step, h]

theorem launches_of_none (h : s.living? = none) (hf : s.manager.failure = none) : s.Launches launcher := by
  cases hl : launcher s.manager.descriptor s.world.host with
  | mk result host =>
    cases result with
    | ok p =>
      obtain ⟨hresult, hstep⟩ := step_attach (attached_of_ok h hf hl)
      refine ⟨?_, ?_, ?_, ?_⟩
      · rw [hstep]
      · rw [hstep, hl]
      · intro p' hp'
        rw [hl] at hp'
        cases hp'
        rw [hstep]
        exact ⟨hresult, rfl, hf, rfl⟩
      · intro e he
        rw [hl] at he
        cases he
    | error e =>
      obtain ⟨hresult, hstep⟩ := step_attach (attached_of_error h hf hl)
      refine ⟨?_, ?_, ?_, ?_⟩
      · rw [hstep, Manager.launches_noteFailure]
      · rw [hstep, hl]
      · intro p hp
        rw [hl] at hp
        cases hp
      · intro e' he'
        rw [hl] at he'
        cases he'
        have hfailure := Manager.failure_noteFailure
          (m := { s.manager with launches := s.manager.launches + 1 }) hf e
        rw [hstep]
        exact ⟨hresult, Manager.slot_noteFailure _ e, hfailure, rfl⟩

theorem attaches (launcher : Launcher ω π) (s : Contention ω π) : s.Attaches launcher where
  living := fun _ h => step_attach (attached_of_living h)
  barred := fun h _ hf => step_attach (attached_of_failure h hf)
  launches := launches_of_none

/-- Attaching leaves the slot and gives at most what stands in it, or puts the process behind all others into
it and gives that. -/
theorem attach_cases (launcher : Launcher ω π) (s : Contention ω π) :
    ((s.step launcher .attach).manager.slot = s.manager.slot ∧
      (s.step launcher .attach).world.pool.processes.length = s.world.pool.processes.length ∧
      ∀ id, (s.attached launcher).1 = .ok id → s.manager.slot = some id) ∨
    ((s.step launcher .attach).manager.slot = some s.world.pool.processes.length ∧
      (s.step launcher .attach).world.pool.processes.length = s.world.pool.processes.length + 1 ∧
      (s.attached launcher).1 = .ok s.world.pool.processes.length) := by
  have h := attaches launcher s
  cases hl : s.living? with
  | some found =>
    obtain ⟨hresult, hstep⟩ := h.living found hl
    refine .inl ⟨by rw [hstep], by rw [hstep], ?_⟩
    intro id hid
    cases hresult.symm.trans hid
    exact (living?_eq_some_iff.mp hl).1
  | none =>
    cases hf : s.manager.failure with
    | some reason =>
      obtain ⟨hresult, hstep⟩ := h.barred hl reason hf
      refine .inl ⟨by rw [hstep], by rw [hstep], ?_⟩
      intro id hid
      cases hresult.symm.trans hid
    | none =>
      have hlaunch := h.launches hl hf
      cases hanswer : (launcher s.manager.descriptor s.world.host).1 with
      | ok p =>
        obtain ⟨hresult, hslot, -, hprocesses⟩ := hlaunch.ok p hanswer
        exact .inr ⟨hslot, by rw [hprocesses, List.length_append]; rfl, hresult⟩
      | error e =>
        obtain ⟨hresult, hslot, -, hpool⟩ := hlaunch.error e hanswer
        refine .inl ⟨hslot, by rw [hpool], ?_⟩
        intro id hid
        cases hresult.symm.trans hid

/-- What attaching gives is what stands in the slot afterwards. -/
theorem slot_of_attached {id : ProcessId} (h : (s.attached launcher).1 = .ok id) :
    (s.step launcher .attach).manager.slot = some id := by
  rcases attach_cases launcher s with ⟨hslot, -, hgiven⟩ | ⟨hslot, -, hgiven⟩
  · rw [hslot]
    exact hgiven id h
  · cases hgiven.symm.trans h
    exact hslot

/-! ### Finishing -/

theorem finish_of_target {b : Begun} {id : ProcessId} (h : b.target = some id) (isBusy : Bool) (w : World ω π) :
    finish b isBusy w = { w with pool := w.pool.update id (b.ending isBusy).apply } := by
  cases b with
  | reset target =>
    obtain rfl : target = some id := h
    rfl
  | shutdown target =>
    obtain rfl : target = some id := h
    cases isBusy <;> rfl

theorem finish_of_no_target {b : Begun} (h : b.target = none) (isBusy : Bool) (w : World ω π) :
    finish b isBusy w = w := by
  cases b with
  | reset target =>
    obtain rfl : target = none := h
    rfl
  | shutdown target =>
    obtain rfl : target = none := h
    rfl

@[simp] theorem length_finish (b : Begun) (isBusy : Bool) (w : World ω π) :
    (finish b isBusy w).pool.processes.length = w.pool.processes.length := by
  cases h : b.target with
  | none => rw [finish_of_no_target h]
  | some id => rw [finish_of_target h, Pool.length_update]

@[simp] theorem host_finish (b : Begun) (isBusy : Bool) (w : World ω π) :
    (finish b isBusy w).host = w.host := by
  cases h : b.target with
  | none => rw [finish_of_no_target h]
  | some id => rw [finish_of_target h]

theorem step_finish_of_none {k : Nat} (h : s.begun[k]? = none) (isBusy : Bool) :
    s.step launcher (.finish k isBusy) = s := by
  simp [step, h]

theorem step_finish_of_begun {k : Nat} {b : Begun} (h : s.begun[k]? = some b) (isBusy : Bool) :
    s.step launcher (.finish k isBusy) = { s with world := finish b isBusy s.world } := by
  simp [step, h]

/-! ### Every turn -/

/-- Only attaching calls the launcher, starts a process, and puts one into the slot. -/
theorem step_of_not_attach {turn : Turn π} (h : turn.isAttach = false) :
    (s.step launcher turn).manager.launches = s.manager.launches ∧
    (s.step launcher turn).world.host = s.world.host ∧
    (s.step launcher turn).world.pool.processes.length = s.world.pool.processes.length ∧
    ((s.step launcher turn).manager.slot = s.manager.slot ∨ (s.step launcher turn).manager.slot = none) := by
  cases turn with
  | attach => cases h
  | beginReset => exact ⟨rfl, rfl, rfl, .inl rfl⟩
  | beginShutdown => exact ⟨rfl, rfl, rfl, .inr rfl⟩
  | finish k isBusy =>
    cases hk : s.begun[k]? with
    | none =>
      rw [step_finish_of_none hk]
      exact ⟨rfl, rfl, rfl, .inl rfl⟩
    | some b =>
      rw [step_finish_of_begun hk]
      exact ⟨rfl, host_finish b isBusy s.world, length_finish b isBusy s.world, .inl rfl⟩
  | use id operation =>
    exact ⟨rfl, rfl, Pool.length_act s.world.pool id (Attempt.modify operation.left), .inl rfl⟩
  | stir id change => exact ⟨rfl, rfl, Pool.length_update s.world.pool id change, .inl rfl⟩

/-- All that a turn does to the slot and to the number of processes. -/
theorem slot_step (launcher : Launcher ω π) (s : Contention ω π) (turn : Turn π) :
    (((s.step launcher turn).manager.slot = s.manager.slot ∨ (s.step launcher turn).manager.slot = none) ∧
      s.world.pool.processes.length ≤ (s.step launcher turn).world.pool.processes.length) ∨
    ((s.step launcher turn).manager.slot = some s.world.pool.processes.length ∧
      (s.step launcher turn).world.pool.processes.length = s.world.pool.processes.length + 1) := by
  rcases turn.eq_attach_or with rfl | hnot
  · rcases attach_cases launcher s with ⟨hslot, hlength, -⟩ | ⟨hslot, hlength, -⟩
    · exact .inl ⟨.inl hslot, Nat.le_of_eq hlength.symm⟩
    · exact .inr ⟨hslot, hlength⟩
  · obtain ⟨-, -, hlength, hslot⟩ := step_of_not_attach (s := s) hnot
    exact .inl ⟨hslot, Nat.le_of_eq hlength.symm⟩

theorem length_le_step (launcher : Launcher ω π) (s : Contention ω π) (turn : Turn π) :
    s.world.pool.processes.length ≤ (s.step launcher turn).world.pool.processes.length := by
  rcases slot_step launcher s turn with ⟨-, h⟩ | ⟨-, h⟩ <;> omega

theorem begun_step (launcher : Launcher ω π) (s : Contention ω π) (turn : Turn π) :
    (s.step launcher turn).begun = s.begun ++ (s.beginning? turn).toList := by
  cases turn with
  | beginReset => rfl
  | beginShutdown => rfl
  | finish k isBusy =>
    cases hk : s.begun[k]? with
    | none => simp [step_finish_of_none hk, beginning?]
    | some b => simp [step_finish_of_begun hk, beginning?]
  | _ => simp [step, beginning?]

/-! ### Runs -/

@[simp] theorem run_nil : s.run launcher [] = s := rfl

@[simp] theorem run_cons (turn : Turn π) (turns : List (Turn π)) :
    s.run launcher (turn :: turns) = (s.step launcher turn).run launcher turns := rfl

theorem run_append (turns more : List (Turn π)) :
    s.run launcher (turns ++ more) = (s.run launcher turns).run launcher more :=
  List.foldl_append

theorem reached_append (launcher : Launcher ω π) (descriptor : Descriptor) (world : World ω π)
    (turns more : List (Turn π)) :
    reached launcher descriptor world (turns ++ more) =
      (reached launcher descriptor world turns).run launcher more := run_append turns more

theorem reached_append_singleton (launcher : Launcher ω π) (descriptor : Descriptor) (world : World ω π)
    (turns : List (Turn π)) (turn : Turn π) :
    reached launcher descriptor world (turns ++ [turn]) =
      (reached launcher descriptor world turns).step launcher turn :=
  reached_append launcher descriptor world turns [turn]

theorem length_le_run (turns : List (Turn π)) :
    s.world.pool.processes.length ≤ (s.run launcher turns).world.pool.processes.length := by
  induction turns generalizing s with
  | nil => exact Nat.le_refl _
  | cons turn turns ih => exact Nat.le_trans (length_le_step launcher s turn) ih

theorem launches_step (launcher : Launcher ω π) (s : Contention ω π) (turn : Turn π) :
    (s.step launcher turn).manager.launches = s.manager.launches + if s.isInNeed turn then 1 else 0 := by
  rcases turn.eq_attach_or with rfl | hnot
  · have h := attaches launcher s
    cases hl : s.living? with
    | some id =>
      rw [(h.living id hl).2]
      simp [isInNeed, hl]
    | none =>
      cases hf : s.manager.failure with
      | some reason =>
        rw [(h.barred hl reason hf).2]
        simp [isInNeed, hf]
      | none =>
        rw [(h.launches hl hf).once]
        simp [isInNeed, Turn.isAttach, hl, hf]
  · rw [(step_of_not_attach hnot).1]
    simp [isInNeed, hnot]

theorem launches_run (turns : List (Turn π)) :
    (s.run launcher turns).manager.launches = s.manager.launches + s.needs launcher turns := by
  induction turns generalizing s with
  | nil => rfl
  | cons turn turns ih => rw [run_cons, ih, launches_step, needs, Nat.add_assoc]

/-- The process in the slot has been started. -/
def Occupied (s : Contention ω π) : Prop :=
  ∀ id, s.manager.slot = some id → id < s.world.pool.processes.length

theorem Occupied.step (h : s.Occupied) (turn : Turn π) : (s.step launcher turn).Occupied := by
  intro id hid
  rcases slot_step launcher s turn with ⟨hslot | hslot, hlength⟩ | ⟨hslot, hlength⟩
  · exact Nat.lt_of_lt_of_le (h id (hslot ▸ hid)) hlength
  · rw [hslot] at hid
    cases hid
  · rw [hslot] at hid
    cases hid
    rw [hlength]
    exact Nat.lt_succ_self _

theorem Occupied.run (h : s.Occupied) (turns : List (Turn π)) : (s.run launcher turns).Occupied := by
  induction turns generalizing s with
  | nil => exact h
  | cons turn turns ih => exact ih (h.step turn)

omit [Peer π] in
theorem occupied_start (descriptor : Descriptor) (world : World ω π) :
    (start descriptor world).Occupied := by
  intro id hid
  cases hid

/-! ### What has left the slot -/

/-- A process that was started and is not in the slot. -/
structure Gone (s : Contention ω π) (id : ProcessId) : Prop where
  outside : s.manager.slot ≠ some id
  started : id < s.world.pool.processes.length

variable {id : ProcessId}

theorem Gone.step (h : s.Gone id) (turn : Turn π) : (s.step launcher turn).Gone id := by
  have hstarted := Nat.lt_of_lt_of_le h.started (length_le_step launcher s turn)
  refine ⟨?_, hstarted⟩
  rcases slot_step launcher s turn with ⟨hslot | hslot, -⟩ | ⟨hslot, -⟩
  · rw [hslot]
    exact h.outside
  · rw [hslot]
    exact nofun
  · -- what comes into the slot is younger than all that was started
    rw [hslot]
    intro heq
    cases heq
    exact Nat.lt_irrefl _ h.started

theorem Gone.run (h : s.Gone id) (turns : List (Turn π)) : (s.run launcher turns).Gone id := by
  induction turns generalizing s with
  | nil => exact h
  | cons turn turns ih => exact ih (h.step turn)

/-- A process that has left the slot is not handed out. -/
theorem Gone.not_attached (h : s.Gone id) : (s.attached launcher).1 ≠ .ok id := by
  intro hgiven
  exact (h.step .attach).outside (slot_of_attached hgiven)

/-! ### What is pending -/

omit [Peer π] in
theorem target_of_beginning {turn : Turn π} {b : Begun} (h : s.beginning? turn = some b) :
    b.target = s.manager.slot := by
  cases turn with
  | beginReset =>
    cases h
    rfl
  | beginShutdown =>
    cases h
    rfl
  | _ => cases h

/-- Everything that is pending was begun by a turn of the run, and is in the place of that turn. -/
theorem exists_beginning {descriptor : Descriptor} {world : World ω π} {turns : List (Turn π)} {k : Nat}
    {b : Begun} (h : (reached launcher descriptor world turns).begun[k]? = some b) :
    ∃ before first after, turns = before ++ first :: after ∧
      (reached launcher descriptor world before).begun.length = k ∧
      (reached launcher descriptor world before).beginning? first = some b := by
  induction turns using List.reverseRecOn with
  | nil => simp [reached] at h
  | append_singleton turns turn ih =>
    rw [reached_append_singleton, begun_step] at h
    by_cases hk : k < (reached launcher descriptor world turns).begun.length
    · rw [List.getElem?_append_left hk] at h
      obtain ⟨before, first, after, rfl, hlength, hfirst⟩ := ih h
      exact ⟨before, first, after ++ [turn], by simp, hlength, hfirst⟩
    · rw [List.getElem?_append_right (by omega)] at h
      cases hb : (reached launcher descriptor world turns).beginning? turn with
      | none => simp [hb] at h
      | some b' =>
        rw [hb] at h
        have hzero : k - (reached launcher descriptor world turns).begun.length = 0 := by
          have hlt := (List.getElem?_eq_some_iff.mp h).1
          simpa using hlt
        rw [hzero] at h
        cases h
        exact ⟨turns, turn, [], by simp, by omega, hb⟩

/-- Between two states the process that was in the slot of an earlier state `r` is ended, and nothing else
happens; so no process is touched that was started behind `r`. -/
structure Ends (r : Contention ω π) (ending : Channel.Ending) (s s' : Contention ω π) : Prop where
  manager : s'.manager = s.manager
  host : s'.world.host = s.world.host
  ended : ∀ id, r.manager.slot = some id → ∃ p, s.world.pool.get? id = some p ∧
    s'.world.pool.get? id = some (ending.apply p)
  dead : ∀ id, r.manager.slot = some id → s'.world.pool.isAlive id = false
  others : ∀ id, r.manager.slot ≠ some id → s'.world.pool.get? id = s.world.pool.get? id
  younger : ∀ id, r.world.pool.processes.length ≤ id → s'.world.pool.get? id = s.world.pool.get? id

theorem get?_finish_of_ne {b : Begun} (h : b.target ≠ some id) (isBusy : Bool) (w : World ω π) :
    (finish b isBusy w).pool.get? id = w.pool.get? id := by
  cases ht : b.target with
  | none => rw [finish_of_no_target ht]
  | some target =>
    have hne : id ≠ target := by
      rintro rfl
      exact h ht
    rw [finish_of_target ht]
    exact Pool.get?_update_of_ne hne _

theorem get?_finish_of_target {b : Begun} (h : b.target = some id) (isBusy : Bool) (w : World ω π) :
    (finish b isBusy w).pool.get? id = (w.pool.get? id).map (b.ending isBusy).apply := by
  rw [finish_of_target h]
  exact Pool.get?_update_self w.pool id _

theorem ends {r : Contention ω π} {first : Turn π} {k : Nat} {b : Begun} (hr : r.Occupied)
    (hfirst : r.beginning? first = some b)
    (hlength : r.world.pool.processes.length ≤ s.world.pool.processes.length) (hk : s.begun[k]? = some b)
    (isBusy : Bool) : Ends r (b.ending isBusy) s (s.step launcher (.finish k isBusy)) := by
  have htarget := target_of_beginning hfirst
  have hended : ∀ id, r.manager.slot = some id → ∃ p, s.world.pool.get? id = some p ∧
      (finish b isBusy s.world).pool.get? id = some ((b.ending isBusy).apply p) := by
    intro id hid
    obtain ⟨p, hp⟩ := Pool.exists_get?_of_lt (Nat.lt_of_lt_of_le (hr id hid) hlength)
    refine ⟨p, hp, ?_⟩
    rw [get?_finish_of_target (htarget.trans hid), hp]
    rfl
  have hothers : ∀ id, r.manager.slot ≠ some id →
      (finish b isBusy s.world).pool.get? id = s.world.pool.get? id :=
    fun id hid => get?_finish_of_ne (htarget ▸ hid) isBusy s.world
  rw [step_finish_of_begun hk]
  refine ⟨rfl, host_finish b isBusy s.world, hended, ?_, hothers, ?_⟩
  · intro id hid
    obtain ⟨p, -, hp⟩ := hended id hid
    have hdead := (b.ending isBusy).isAlive_apply p
    simp [Pool.isAlive, hp, hdead]
  · intro id hid
    exact hothers id fun hslot => Nat.lt_irrefl id (Nat.lt_of_lt_of_le (hr id hslot) hid)

/-! ### Turns in any order -/

/-- What holds of a manager behind turns in any order. -/
structure Guarded (launcher : Launcher ω π) (descriptor : Descriptor) (world : World ω π)
    (turns : List (Turn π)) : Prop where
  attaches : (reached launcher descriptor world turns).Attaches launcher
  /-- No other turn calls the launcher, starts a process or puts one into the slot. -/
  only : ∀ turn : Turn π, turn.isAttach = false →
    let s := reached launcher descriptor world turns
    let s' := reached launcher descriptor world (turns ++ [turn])
    s'.manager.launches = s.manager.launches ∧ s'.world.host = s.world.host ∧
      s'.world.pool.processes.length = s.world.pool.processes.length ∧
      (s'.manager.slot = s.manager.slot ∨ s'.manager.slot = none)
  /-- The launcher was called once for each turn that needed a new process. -/
  as_needed : (reached launcher descriptor world turns).manager.launches =
    (start descriptor world).needs launcher turns
  vacated : (reached launcher descriptor world (turns ++ [.beginShutdown])).manager.slot = none
  /-- A process that was in the slot, and has been replaced or taken out of it, is not handed out. -/
  never_again : ∀ id later more,
    (reached launcher descriptor world turns).manager.slot = some id →
    (reached launcher descriptor world (turns ++ later)).manager.slot ≠ some id →
    ((reached launcher descriptor world (turns ++ later ++ more)).attached launcher).1 ≠ .ok id
  unbegun : ∀ k isBusy, (reached launcher descriptor world turns).begun[k]? = none →
    reached launcher descriptor world (turns ++ [.finish k isBusy]) = reached launcher descriptor world turns
  /-- What is pending as number `k` had its first step somewhere in the run, and ends the process that was in
  the slot then. -/
  ends : ∀ k b isBusy, (reached launcher descriptor world turns).begun[k]? = some b →
    ∃ before first after, turns = before ++ first :: after ∧
      (reached launcher descriptor world before).begun.length = k ∧
      (reached launcher descriptor world before).beginning? first = some b ∧
      Ends (reached launcher descriptor world before) (b.ending isBusy)
        (reached launcher descriptor world turns)
        (reached launcher descriptor world (turns ++ [.finish k isBusy]))

/-- **Spawning or attaching is safe.**  Threads attach, reset, shut down and use processes in any order,
whatever the launcher does and whatever happens to the processes. -/
theorem spawn_or_attach (launcher : Launcher ω π) (descriptor : Descriptor) (world : World ω π)
    (turns : List (Turn π)) : Guarded launcher descriptor world turns := by
  have hoccupied : ∀ turns, (reached launcher descriptor world turns).Occupied :=
    (occupied_start descriptor world).run
  refine ⟨attaches launcher _, ?_, ?_, ?_, ?_, ?_, ?_⟩
  · intro turn hturn
    rw [reached_append_singleton]
    exact step_of_not_attach hturn
  · exact (launches_run turns).trans (Nat.zero_add _)
  · rw [reached_append_singleton]
    rfl
  · intro id later more hid hleft
    have hstarted : id < (reached launcher descriptor world (turns ++ later)).world.pool.processes.length := by
      rw [reached_append]
      exact Nat.lt_of_lt_of_le (hoccupied turns id hid) (length_le_run later)
    have hgone : (reached launcher descriptor world (turns ++ later)).Gone id := ⟨hleft, hstarted⟩
    rw [reached_append]
    exact (hgone.run more).not_attached
  · intro k isBusy hk
    rw [reached_append_singleton]
    exact step_finish_of_none hk isBusy
  · intro k b isBusy hk
    obtain ⟨before, first, after, hturns, hlength, hfirst⟩ := exists_beginning hk
    have hle : (reached launcher descriptor world before).world.pool.processes.length ≤
        (reached launcher descriptor world turns).world.pool.processes.length := by
      rw [hturns, reached_append]
      exact length_le_run _
    refine ⟨before, first, after, hturns, hlength, hfirst, ?_⟩
    rw [reached_append_singleton]
    exact Contention.ends (hoccupied before) hfirst hle hk isBusy

/-- A reset is begun, its process dies, another is started; then the reset is finished. -/
example (descriptor : Descriptor) :
    let launcher : Launcher Unit (Channel.Streams Channel.ScriptedSink) := fun d w =>
      (.ok (.ofPeer d.name ⟨{ }, []⟩ d.framing), w)
    let s := reached launcher descriptor { host := () }
      [.attach, .beginReset, .use 0 (.finish .markDead), .attach, .finish 0 false]
    (s.manager.slot, s.world.pool.isAlive 0, s.world.pool.isAlive 1) = (some 1, false, true) := by
  rfl

/-! ### Nobody in between -/

omit [Peer π] in
theorem begun_append_self (begun : List Begun) (b : Begun) :
    (begun ++ [b])[begun.length]? = some b := by
  simp

theorem reset_eq (isBusy : Bool) :
    s.run launcher [.beginReset, .finish s.begun.length isBusy] =
      { s with world := s.manager.reset s.world, begun := s.begun ++ [.reset s.manager.slot] } := by
  rw [run_cons, run_cons, run_nil, step_finish_of_begun (begun_append_self s.begun _)]
  rfl

theorem shutdown_eq (isBusy : Bool) :
    s.run launcher [.beginShutdown, .finish s.begun.length isBusy] =
      { manager := (s.manager.shutdown (fun _ => isBusy) s.world).1
        world := (s.manager.shutdown (fun _ => isBusy) s.world).2
        begun := s.begun ++ [.shutdown s.manager.slot] } := by
  rw [run_cons, run_cons, run_nil, step_finish_of_begun (begun_append_self s.begun _)]
  rfl

end Contention

end EnginePipe.Launch
