import EnginePipe.Bridge.Desk
import EnginePipe.Proofs.Bridge.Ageing
import EnginePipe.Proofs.Bridge.Runs
import EnginePipe.Proofs.Bridge.Selection
import EnginePipe.Proofs.Context.Failures

/-!
# Engines that cannot be started

When a manager has been told that its engine cannot be started, the runtime over it is of no use any more.
This needs an argument where one process serves all contexts, for such a runtime could still hand out what
stands in the slot.  But the launcher was asked because the process there was dead, and dead processes stay dead
(`World.Ages`), whatever else goes on in the world.

* `Manager.Steady.start`: a failure comes with a slot in which nothing is alive.
* `Stage.kept_live`, `Stage.kept_liveAll`: what one occasion keeps, and what all of them do.
* `Runtime.refuses_of_fails`: **what a runtime does whose engine cannot be started**.
* `Stage.failure_is_final`: managers, runtimes and selectors together, over all runs.
-/

namespace EnginePipe

open Channel (Peer EngineProcess)
open Launch (Answer Call Handle Launcher Locator Command Manager ProcessId Recorded World)

variable {ω π α : Type} [Peer π]

/-! ### Managers -/

namespace Launch.Manager

/-- The manager of a descriptor.  If it has been told that the engine cannot be started, and its slot is used,
then nothing is alive there. -/
structure Steady (d : Descriptor) (m : Manager) (w : World ω π) : Prop where
  descriptor : m.descriptor = d
  seated : ∀ id, m.slot = some id → id < w.pool.processes.length
  vacant : m.failure ≠ none → d.isShared → m.current? w = none

theorem steady_ofDescriptor (d : Descriptor) (w : World ω π) : Steady d (.ofDescriptor d) w where
  descriptor := rfl
  seated := by
    intro id hid
    cases hid
  vacant := fun h => absurd rfl h

omit [Peer π] in
@[simp] theorem descriptor_noteFailure (m : Manager) (e : Error) :
    (m.noteFailure e).descriptor = m.descriptor := by
  cases e <;> rfl

theorem current?_eq_none_iff {m : Manager} {w : World ω π} :
    m.current? w = none ↔ ∀ id, m.slot = some id → w.pool.isAlive id = false := by
  rw [Option.eq_none_iff_forall_not_mem]
  constructor
  · intro h id hid
    rw [← Bool.not_eq_true]
    exact fun ha => h id (current?_eq_some_iff.2 ⟨hid, ha⟩)
  · intro h id hid
    obtain ⟨hslot, ha⟩ := current?_eq_some_iff.1 hid
    exact Bool.false_ne_true ((h id hslot).symm.trans ha)

namespace Steady

variable {d : Descriptor} {m : Manager} {w w' : World ω π} (h : Steady d m w)

include h

/-- It goes on in any later world. -/
theorem ages (hw : w.Ages w') : Steady d m w' where
  descriptor := h.descriptor
  seated := fun id hid => Nat.lt_of_lt_of_le (h.seated id hid) hw.length
  vacant := by
    intro hf hs
    rw [current?_eq_none_iff]
    intro id hid
    exact hw.dead id (h.seated id hid) (current?_eq_none_iff.1 (h.vacant hf hs) id hid)

theorem start_of_failure {reason : String} (hf : m.failure = some reason) (launcher : Launcher ω π) :
    start launcher (m, w) = (.error (.spawnFailed d.name reason), m, w) := by
  have hlaunch := launch_of_failure hf w launcher
  rw [h.descriptor] at hlaunch
  cases hs : m.descriptor.isShared with
  | true =>
    have hnone : m.current? w = none := h.vacant (by rw [hf]; simp) (h.descriptor ▸ hs)
    rw [start_of_shared hs, attach_of_none hnone, replace_eq, hlaunch]
    rfl
  | false =>
    rw [start_of_owned hs, hlaunch]
    rfl

/-- A process that was started for a call. -/
theorem seat (isSeated : Bool) (hf : m.failure = none) (p : EngineProcess π) (host : ω) :
    Steady d (Call.seat isSeated w.pool.processes.length { m with
      launches := m.launches + 1, started := m.started ++ [w.pool.processes.length] }).2
      { w with host, pool := (w.pool.start p).2 } := by
  have hlength : (w.pool.start p).2.processes.length = w.pool.processes.length + 1 := by
    simp [Pool.start]
  unfold Call.seat
  cases isSeated with
  | true =>
    refine ⟨h.descriptor, ?_, fun hne => absurd hf hne⟩
    intro id hid
    cases hid
    exact hlength ▸ Nat.lt_succ_self _
  | false =>
    refine ⟨h.descriptor, ?_, fun hne => absurd hf hne⟩
    intro id hid
    exact hlength ▸ Nat.lt_succ_of_lt (h.seated id hid)

/-- Starting keeps it so: the launcher is asked where nothing is alive. -/
theorem start (launcher : Launcher ω π) :
    Steady d (Manager.start launcher (m, w)).2.1 (Manager.start launcher (m, w)).2.2 := by
  have hages := ages_start launcher m w
  have hstate : (Manager.start launcher (m, w)).2 = ((Call.start : Call π).run launcher (m, w)).2 := by
    rw [Call.run_start]
  rw [hstate] at hages ⊢
  cases hn : (Call.start : Call π).needsProcess m w with
  | false =>
    obtain ⟨_, -, hrun⟩ := Call.run_of_living launcher rfl hn
    rw [hrun]
    exact h
  | true =>
    rw [Call.run_of_needs hn] at hages ⊢
    cases hf : m.failure with
    | some reason =>
      rw [launch_of_failure hf]
      exact h
    | none =>
      cases hl : launcher m.descriptor w.host with
      | mk result host =>
        cases result with
        | ok p =>
          rw [launch_of_ok hf hl]
          exact h.seat _ hf p host
        | error e =>
          rw [launch_of_error hf hl]
          refine ⟨by rw [descriptor_noteFailure, ← h.descriptor], ?_, ?_⟩
          · intro id hid
            rw [slot_noteFailure] at hid
            exact h.seated id hid
          · intro _ hs
            have hnone : m.current? w = none := by
              rw [Call.needsProcess, h.descriptor, hs, Bool.not_true, Bool.false_or,
                Option.isNone_iff_eq_none] at hn
              exact hn
            rw [current?_eq_none_iff] at hnone ⊢
            rw [slot_noteFailure]
            exact hnone

theorem shutdown (isBusy : ProcessId → Bool) :
    Steady d (m.shutdown isBusy w).1 (m.shutdown isBusy w).2 where
  descriptor := h.descriptor
  seated := by
    intro id hid
    cases hid
  vacant := fun _ _ => rfl

end Steady

/-- A start that fails because of the engine makes the failure known. -/
theorem failure_start {launcher : Launcher ω π} {m : Manager} {w : World ω π} {runtime reason : String}
    (h : (start launcher (m, w)).1 = .error (.spawnFailed runtime reason)) :
    (start launcher (m, w)).2.1.failure = some reason := by
  have hstate : (start launcher (m, w)).2 = ((Call.start : Call π).run launcher (m, w)).2 := by
    rw [Call.run_start]
  have hresult : ((Call.start : Call π).run launcher (m, w)).1 = .error (.spawnFailed runtime reason) := by
    rw [Call.run_start, h]
    rfl
  rw [hstate]
  cases hn : (Call.start : Call π).needsProcess m w with
  | false =>
    obtain ⟨_, -, hrun⟩ := Call.run_of_living launcher rfl hn
    rw [hrun] at hresult
    cases hresult
  | true =>
    rw [Call.run_of_needs hn] at hresult ⊢
    cases hf : m.failure with
    | some known =>
      rw [launch_of_failure hf] at hresult ⊢
      cases hresult
      exact hf
    | none =>
      cases hl : launcher m.descriptor w.host with
      | mk result host =>
        cases result with
        | ok p =>
          rw [launch_of_ok hf hl] at hresult
          cases hresult
        | error e =>
          rw [launch_of_error hf hl] at hresult ⊢
          cases hresult
          rfl

end Launch.Manager

namespace Bridge

/-! ### Runtimes -/

namespace External

/-- A runtime with a descriptor, whose manager is steady if there is one. -/
structure Steady (d : Descriptor) (x : External ω π) (w : World ω π) : Prop where
  descriptor : x.descriptor = d
  manager : ∀ m, x.probe.manager? = some m → m.Steady d w

variable {d : Descriptor} {x : External ω π} {w w' : World ω π}

theorem Steady.ages (h : Steady d x w) (hw : w.Ages w') : Steady d x w' :=
  ⟨h.descriptor, fun m hm => (h.manager m hm).ages hw⟩

theorem Steady.probed (h : Steady d x w) : Steady d (x.probed w).1 (x.probed w).2 := by
  have hages : w.Ages (x.probed w).2 := .of_pool (x.pool_probed w)
  cases hp : x.probe with
  | pending =>
    unfold External.probed at hages ⊢
    rw [hp] at hages ⊢
    refine ⟨h.descriptor, ?_⟩
    intro m hm
    dsimp only at hm ⊢
    cases hc : (Launch.resolve x.locator x.descriptor.commands w.host).1 with
    | none =>
      rw [hc] at hm
      cases hm
    | some c =>
      rw [hc] at hm
      cases hm
      rw [h.descriptor]
      exact Manager.steady_ofDescriptor d _
  | _ =>
    have hnot : x.probe ≠ .pending := by simp [hp]
    rw [probed_of_not_pending hnot] at hages ⊢
    exact h

theorem Steady.start (h : Steady d x w) :
    Steady d (External.start (x, w)).2.1 (External.start (x, w)).2.2 := by
  unfold External.start
  dsimp only
  cases hp : x.probe with
  | found launcher m =>
    have hm : m.Steady d w := h.manager m (by rw [hp]; rfl)
    refine ⟨h.descriptor, ?_⟩
    intro m' hm'
    cases hm'
    exact hm.start launcher
  | _ => exact h

theorem Steady.openContext (h : Steady d x w) (preamble : String) :
    Steady d (External.openContext preamble (x, w)).2.1 (External.openContext preamble (x, w)).2.2 := by
  have htaken : w.Ages w.takeId.2 := .of_pool rfl
  have hstart := (h.ages htaken).start
  unfold External.openContext
  obtain ⟨⟨result, x', w'⟩, hs⟩ : ∃ a, External.start (x, w.takeId.2) = a := ⟨_, rfl⟩
  rw [hs] at hstart
  dsimp only
  rw [hs]
  cases result with
  | error e => exact hstart
  | ok handle => exact hstart.ages (Context.serves_start _ _ preamble w').ages

theorem Steady.compile (h : Steady d x w) (preamble : String) :
    Steady d (External.compile preamble (x, w)).2.1 (External.compile preamble (x, w)).2.2 := by
  have hprobed := h.probed
  unfold External.compile
  obtain ⟨⟨x', w'⟩, hp⟩ : ∃ a, x.probed w = a := ⟨_, rfl⟩
  rw [hp] at hprobed
  dsimp only
  rw [hp]
  dsimp only
  split
  · exact hprobed.openContext preamble
  · exact hprobed

theorem Steady.shutdown (h : Steady d x w) : Steady d (x.shutdown w).1 (x.shutdown w).2 := by
  unfold External.shutdown
  cases hp : x.probe with
  | found launcher m =>
    have hm : m.Steady d w := h.manager m (by rw [hp]; rfl)
    refine ⟨h.descriptor, ?_⟩
    intro m' hm'
    cases hm'
    exact hm.shutdown _
  | _ => exact h

/-- Its manager has been told that the engine cannot be started. -/
structure Fails (d : Descriptor) (reason : String) (launches : Nat) (x : External ω π) (w : World ω π) :
    Prop where
  steady : Steady d x w
  failure : ∃ launcher m, x.probe = .found launcher m ∧ m.failure = some reason ∧ m.launches = launches

namespace Fails

variable {reason : String} {launches : Nat} (h : Fails d reason launches x w)

include h

theorem ages (hw : w.Ages w') : Fails d reason launches x w' := ⟨h.steady.ages hw, h.failure⟩

theorem probed : x.probed w = (x, w) := by
  obtain ⟨launcher, m, hp, -⟩ := h.failure
  exact probed_of_not_pending (by simp [hp]) w

theorem isUsable : x.isUsable = false := by
  obtain ⟨launcher, m, hp, hf, -⟩ := h.failure
  simp [External.isUsable, hp, Probe.manager?, hf]

theorem start : External.start (x, w) = (.error (.spawnFailed d.name reason), x, w) := by
  obtain ⟨launcher, m, hp, hf, -⟩ := h.failure
  have hm : m.Steady d w := h.steady.manager m (by rw [hp]; rfl)
  unfold External.start
  simp only [hp, hm.start_of_failure hf]
  rw [← hp]

theorem compile (preamble : String) :
    External.compile preamble (x, w) = (.error (.spawnFailed d.name reason), x, w.takeId.2) := by
  have hprobed := h.probed
  have hlater : Fails d reason launches x w.takeId.2 := h.ages (.of_pool rfl)
  have hstart := hlater.start
  obtain ⟨launcher, m, hp, -⟩ := h.failure
  simp only [External.compile, hprobed, hp, External.openContext, hstart]

theorem shutdown : Fails d reason launches (x.shutdown w).1 (x.shutdown w).2 := by
  refine ⟨h.steady.shutdown, ?_⟩
  obtain ⟨launcher, m, hp, hf, hl⟩ := h.failure
  unfold External.shutdown
  rw [hp]
  exact ⟨launcher, _, rfl, hf, hl⟩

end Fails

/-! ### The first failure -/

theorem compile_of_found {preamble : String} {x : External ω π} {w : World ω π} {launcher : Launcher ω π}
    {m : Manager} (h : (x.probed w).1.probe = .found launcher m) :
    compile preamble (x, w) = openContext preamble (x.probed w) := by
  simp only [compile, h]

theorem compile_of_not_found {preamble : String} {x : External ω π} {w : World ω π}
    (h : (x.probed w).1.probe.manager? = none) : compile preamble (x, w) =
      (.error (.runtimeUnavailable (x.probed w).1.descriptor.name), x.probed w) := by
  cases hp : (x.probed w).1.probe with
  | found launcher m =>
    rw [hp] at h
    cases h
  | _ => simp only [compile, hp]

/-- A context that is not opened because the engine could not be started makes the failure known. -/
theorem failure_openContext {preamble : String} {x : External ω π} {w : World ω π} {launcher : Launcher ω π}
    {m : Manager} (hp : x.probe = .found launcher m) {runtime reason : String}
    (h : (openContext preamble (x, w)).1 = .error (.spawnFailed runtime reason)) :
    (openContext preamble (x, w)).2.1.probe.manager?.bind Manager.failure = some reason := by
  have hfailure : (Manager.start launcher (m, w.takeId.2)).1 = .error (.spawnFailed runtime reason) →
    (Manager.start launcher (m, w.takeId.2)).2.1.failure = some reason := Manager.failure_start
  obtain ⟨⟨result, m', w'⟩, hs⟩ : ∃ a, Manager.start launcher (m, w.takeId.2) = a := ⟨_, rfl⟩
  have hstart : External.start (x, w.takeId.2) = (result, { x with probe := .found launcher m' }, w') := by
    simp only [External.start, hp, hs]
  rw [hs] at hfailure
  unfold openContext at h ⊢
  dsimp only at h ⊢
  rw [hstart] at h ⊢
  cases result with
  | ok handle => cases Context.onStarted_start _ _ preamble w' _ h
  | error e =>
    cases h
    exact hfailure rfl

theorem failure_compile {preamble : String} {x : External ω π} {w : World ω π} {runtime reason : String}
    (h : (compile preamble (x, w)).1 = .error (.spawnFailed runtime reason)) :
    (compile preamble (x, w)).2.1.probe.manager?.bind Manager.failure = some reason := by
  cases hp : (x.probed w).1.probe with
  | found launcher m =>
    rw [compile_of_found hp] at h ⊢
    exact failure_openContext hp h
  | _ =>
    rw [compile_of_not_found (by rw [hp]; rfl)] at h
    simp [Error.runtimeUnavailable] at h

end External

namespace Runtime

/-- The manager, if an engine was found. -/
def manager? : Runtime ω π → Option Manager
  | external x => x.probe.manager?
  | disabled => none

/-- Why the engine could not be started. -/
def failure? (r : Runtime ω π) : Option String := r.manager?.bind Manager.failure

/-- **A failure to start is noted**, where a context is opened and where something is done in one. -/
theorem failure_compile {preamble : String} {r : Runtime ω π} {w : World ω π} {runtime reason : String}
    (h : (compile preamble (r, w)).1 = .error (.spawnFailed runtime reason)) :
    (compile preamble (r, w)).2.1.failure? = some reason := by
  cases r with
  | external x => exact External.failure_compile h
  | disabled => cases h

theorem failure_withContext {preamble : String} {body : Attempt (Context PipeSession × World ω π) α}
    {r : Runtime ω π} {w : World ω π} {runtime reason : String}
    (hbody : ∀ s, (body s).1 ≠ .error (.spawnFailed runtime reason))
    (h : (withContext preamble body (r, w)).1 = .error (.spawnFailed runtime reason)) :
    (withContext preamble body (r, w)).2.1.failure? = some reason := by
  have hnoted : (compile preamble (r, w)).1 = .error (.spawnFailed runtime reason) →
    (compile preamble (r, w)).2.1.failure? = some reason := failure_compile
  obtain ⟨⟨result, r', w'⟩, hc⟩ : ∃ a, compile preamble (r, w) = a := ⟨_, rfl⟩
  rw [hc] at hnoted
  unfold withContext at h ⊢
  cases result with
  | error e =>
    rw [Attempt.bind_apply_of_error hc] at h ⊢
    cases h
    exact hnoted rfl
  | ok c =>
    rw [Attempt.bind_apply_of_ok hc] at h
    exact absurd (c.body_of_finish rfl h) (hbody _)

/-- A property of a runtime in its world that goes on in later worlds, and that is kept when the runtime is asked
whether it is available, when it opens a context, and when its engine is ended. -/
structure Kept (P : Runtime ω π → World ω π → Prop) : Prop where
  ages : ∀ {r w w'}, P r w → w.Ages w' → P r w'
  ask : ∀ {r w}, P r w → P (r.isAvailable w).2.1 (r.isAvailable w).2.2
  compile : ∀ {r w} (preamble : String), P r w →
    P (Runtime.compile preamble (r, w)).2.1 (Runtime.compile preamble (r, w)).2.2
  shutdown : ∀ {r w}, P r w → P (r.shutdown w).1 (r.shutdown w).2

variable {P : Runtime ω π → World ω π → Prop} {r : Runtime ω π} {w : World ω π}

theorem Kept.withContext (hP : Kept P) (h : P r w) (preamble : String)
    {body : Attempt (Context PipeSession × World ω π) α}
    (hbody : ∀ s : Context PipeSession × World ω π, s.2.Serves (body s).2.2) :
    P (Runtime.withContext preamble body (r, w)).2.1 (Runtime.withContext preamble body (r, w)).2.2 := by
  have hcompile := hP.compile preamble h
  obtain ⟨⟨result, r', w'⟩, hc⟩ : ∃ a, Runtime.compile preamble (r, w) = a := ⟨_, rfl⟩
  rw [hc] at hcompile
  unfold Runtime.withContext
  cases result with
  | error e =>
    rw [Attempt.bind_apply_of_error hc]
    exact hcompile
  | ok c =>
    rw [Attempt.bind_apply_of_ok hc]
    exact hP.ages hcompile (c.serves_finish hbody w').ages

theorem Kept.reset (hP : Kept P) (h : P r w) : P r (r.reset w) := by
  cases r with
  | external x => exact hP.ages h (x.serves_reset w).ages
  | disabled => exact h

/-- A runtime over a steady manager, if there is one. -/
def Steady (d : Descriptor) (r : Runtime ω π) (w : World ω π) : Prop :=
  ∃ x, r = external x ∧ External.Steady d x w

theorem kept_steady (d : Descriptor) : Kept (Steady (ω := ω) (π := π) d) where
  ages := by
    rintro _ w w' ⟨x, rfl, hx⟩ hw
    exact ⟨x, rfl, hx.ages hw⟩
  ask := by
    rintro _ w ⟨x, rfl, hx⟩
    exact ⟨_, rfl, hx.probed⟩
  compile := by
    rintro _ w preamble ⟨x, rfl, hx⟩
    exact ⟨_, rfl, hx.compile preamble⟩
  shutdown := by
    rintro _ w ⟨x, rfl, hx⟩
    exact ⟨_, rfl, hx.shutdown⟩

/-- A runtime whose manager has been told that the engine cannot be started. -/
def Fails (d : Descriptor) (reason : String) (launches : Nat) (r : Runtime ω π) (w : World ω π) : Prop :=
  ∃ x, r = external x ∧ External.Fails d reason launches x w

theorem kept_fails (d : Descriptor) (reason : String) (launches : Nat) :
    Kept (Fails (ω := ω) (π := π) d reason launches) where
  ages := by
    rintro _ w w' ⟨x, rfl, hx⟩ hw
    exact ⟨x, rfl, hx.ages hw⟩
  ask := by
    rintro _ w ⟨x, rfl, hx⟩
    refine ⟨x, ?_, ?_⟩
    · show external (x.probed w).1 = external x
      rw [hx.probed]
    · show External.Fails d reason launches x (x.probed w).2
      rw [hx.probed]
      exact hx
  compile := by
    rintro _ w preamble ⟨x, rfl, hx⟩
    refine ⟨x, ?_, ?_⟩
    · show external (External.compile preamble (x, w)).2.1 = external x
      rw [hx.compile]
    · show External.Fails d reason launches x (External.compile preamble (x, w)).2.2
      rw [hx.compile]
      exact hx.ages (.of_pool rfl)
  shutdown := by
    rintro _ w ⟨x, rfl, hx⟩
    exact ⟨_, rfl, hx.shutdown⟩

end Runtime

/-! ### Refusals -/

namespace Runtime

/-- What a runtime does whose engine cannot be started.  A key for a context is taken all the same. -/
structure Refuses (name reason : String) (r : Runtime ω π) (w : World ω π) : Prop where
  unavailable : (r.isAvailable w).1 = false
  compile : ∀ preamble : String,
    Runtime.compile preamble (r, w) = (.error (.spawnFailed name reason), r, w.takeId.2)
  withContext : ∀ (α : Type) (preamble : String) (body : Attempt (Context PipeSession × World ω π) α),
    Runtime.withContext preamble body (r, w) = (.error (.spawnFailed name reason), r, w.takeId.2)
  exec : ∀ source : String, Runtime.exec source (r, w) = (.error (.spawnFailed name reason), r, w.takeId.2)
  eval : ∀ source : String, Runtime.eval source (r, w) = (.error (.spawnFailed name reason), r, w.takeId.2)
  /-- No selector chooses it that is not asked for a name, whatever else is registered. -/
  unchosen : ∀ (desk : Desk ω π) (id : RuntimeId), desk.get? id = some r →
    ∀ selector : Selector RuntimeId, selector.overrideName = none → ∀ excluded,
      (selector.select excluded desk).1 ≠ .ok id

variable {d : Descriptor} {reason : String} {launches : Nat} {r : Runtime ω π} {w : World ω π}

theorem refuses_of_fails (h : Fails d reason launches r w) : Refuses d.name reason r w := by
  obtain ⟨x, rfl, hx⟩ := h
  have havailable : ∀ w : World ω π, (isAvailable (external x) w).1 = false ∧
      (isAvailable (external x) w).2.1 = external x := by
    intro w'
    obtain ⟨launcher, m, hp, -⟩ := hx.failure
    have hprobed : x.probed w' = (x, w') := External.probed_of_not_pending (by simp [hp]) w'
    refine ⟨?_, ?_⟩
    · show (x.probed w').1.isUsable = false
      rw [hprobed, hx.isUsable]
    · show external (x.probed w').1 = external x
      rw [hprobed]
  have hcompile : ∀ preamble : String, Runtime.compile preamble (external x, w) =
      (.error (.spawnFailed d.name reason), external x, w.takeId.2) := by
    intro preamble
    unfold Runtime.compile
    dsimp only
    rw [hx.compile]
  have hwithContext : ∀ (α : Type) (preamble : String) (body : Attempt (Context PipeSession × World ω π) α),
      Runtime.withContext preamble body (external x, w) =
        (.error (.spawnFailed d.name reason), external x, w.takeId.2) := by
    intro α preamble body
    unfold Runtime.withContext
    rw [Attempt.bind_apply_of_error (hcompile preamble)]
  exact ⟨(havailable w).1, hcompile, hwithContext, fun source => hwithContext _ "" _,
    fun source => hwithContext _ "" _, fun desk id hid selector hs excluded =>
      Desk.Shuns.select ⟨_, hid, havailable⟩ hs excluded⟩

theorem fails_of_failure? (h : Steady d r w) (hf : r.failure? = some reason) :
    ∃ launches, (r.manager?.map Manager.launches) = some launches ∧ Fails d reason launches r w := by
  obtain ⟨x, rfl, hx⟩ := h
  cases hp : x.probe with
  | found launcher m =>
    have hm : (external x).manager? = some m := by
      show x.probe.manager? = some m
      rw [hp]
      rfl
    rw [failure?, hm] at hf
    exact ⟨m.launches, by rw [hm]; rfl, x, rfl, hx, launcher, m, hp, hf, rfl⟩
  | _ =>
    have hm : (external x).manager? = none := by
      show x.probe.manager? = none
      rw [hp]
      rfl
    rw [failure?, hm] at hf
    cases hf

theorem manager?_of_fails (h : Fails d reason launches r w) :
    r.failure? = some reason ∧ r.manager?.map Manager.launches = some launches := by
  obtain ⟨x, rfl, hx⟩ := h
  obtain ⟨launcher, m, hp, hf, hl⟩ := hx.failure
  have hm : (external x).manager? = some m := by
    show x.probe.manager? = some m
    rw [hp]
    rfl
  rw [failure?, hm]
  exact ⟨hf, congrArg some hl⟩

end Runtime

/-! ### Runs -/

/-- Something that happens while a runtime is there. -/
inductive Occasion (ω π : Type) [Peer π] where
  | use (op : Op)
  /-- It is asked whether it is available. -/
  | ask
  /-- Something else goes on in the world: engines exit, other runtimes start theirs and end them. -/
  | meanwhile (change : World ω π → World ω π) (ages : ∀ w : World ω π, w.Ages (change w))

/-- How a runtime is made: it looks for its commands when it needs them, or it has a launcher. -/
inductive Opening (ω π : Type) where
  | located (descriptor : Descriptor) (locator : Locator ω) (spawn : Command → Launcher ω π)
  | launched (descriptor : Descriptor) (launcher : Launcher ω π)

namespace Opening

variable {ω π : Type}

/-- What the runtime is made for. -/
def descriptor : Opening ω π → Descriptor
  | located d _ _ => d
  | launched d _ => d

/-- The runtime. -/
def runtime : Opening ω π → Runtime ω π
  | located descriptor locator spawn => .external { descriptor, locator, spawn }
  | launched d launcher => .external (.ofLauncher d launcher)

theorem steady [Peer π] (o : Opening ω π) (w : World ω π) : Runtime.Steady o.descriptor o.runtime w := by
  cases o with
  | located d locator spawn =>
    refine ⟨_, rfl, rfl, ?_⟩
    intro m hm
    cases hm
  | launched d launcher =>
    refine ⟨_, rfl, rfl, ?_⟩
    intro m hm
    cases hm
    exact Manager.steady_ofDescriptor d w

end Opening

namespace Stage

/-- After an occasion. -/
def live (g : Stage (Runtime ω π) (World ω π)) : Occasion ω π → Stage (Runtime ω π) (World ω π)
  | .use op => g.step op
  | .ask =>
    { g with
      runtime := (g.runtime.isAvailable g.world).2.1
      world := (g.runtime.isAvailable g.world).2.2 }
  | .meanwhile change _ => { g with world := change g.world }

/-- After one occasion after the other. -/
def liveAll (g : Stage (Runtime ω π) (World ω π)) (occasions : List (Occasion ω π)) :
    Stage (Runtime ω π) (World ω π) :=
  occasions.foldl live g

variable {P : Runtime ω π → World ω π → Prop} {g : Stage (Runtime ω π) (World ω π)}

/-- **What a runtime keeps, one occasion keeps.** -/
theorem kept_live (hP : Runtime.Kept P) (h : P g.runtime g.world) (occasion : Occasion ω π) :
    P (g.live occasion).runtime (g.live occasion).world := by
  cases occasion with
  | use op =>
    cases op with
    | compile preamble => exact hP.compile preamble h
    | act k op =>
      show P (g.act k op).runtime (g.act k op).world
      unfold act
      cases g.contexts[k]? with
      | none => exact h
      | some c => exact hP.ages h (op.serves (c, g.world)).ages
    | exec source =>
      have hdone := hP.withContext h "" (ContextOp.exec source).serves
      exact hdone
    | eval source =>
      have hdone := hP.withContext h "" (ContextOp.eval source).serves
      exact hdone
    | withContext preamble body =>
      have hdone := hP.withContext h preamble body.serves
      exact hdone
    | reset => exact hP.reset h
    | shutdown => exact hP.shutdown h
  | ask => exact hP.ask h
  | meanwhile change ages => exact hP.ages h (ages g.world)

theorem kept_liveAll (hP : Runtime.Kept P) (h : P g.runtime g.world) (occasions : List (Occasion ω π)) :
    P (g.liveAll occasions).runtime (g.liveAll occasions).world := by
  induction occasions generalizing g with
  | nil => exact h
  | cons occasion occasions ih => exact ih (kept_live hP h occasion)

/-- What a failure to start means for a runtime, now and later. -/
structure Barred (name : String) (g : Stage (Runtime ω π) (World ω π)) : Prop where
  /-- The first failure is noted. -/
  noted : ∀ preamble runtime reason,
    (Runtime.compile preamble (g.runtime, g.world)).1 = .error (.spawnFailed runtime reason) →
      (g.live (.use (.compile preamble))).runtime.failure? = some reason
  noted_exec : ∀ source runtime reason,
    (Runtime.exec source (g.runtime, g.world)).1 = .error (.spawnFailed runtime reason) →
      (g.live (.use (.exec source))).runtime.failure? = some reason
  noted_eval : ∀ source runtime reason,
    (Runtime.eval source (g.runtime, g.world)).1 = .error (.spawnFailed runtime reason) →
      (g.live (.use (.eval source))).runtime.failure? = some reason
  /-- A body may also bring such an error of its own. -/
  noted_withContext : ∀ preamble body runtime reason,
    (Runtime.withContext preamble body.run (g.runtime, g.world)).1 = .error (.spawnFailed runtime reason) →
      body.MayGive (.error (.spawnFailed runtime reason)) ∨
        (g.live (.use (.withContext preamble body))).runtime.failure? = some reason
  /-- It stays, the launcher is not called again, and the runtime refuses. -/
  final : ∀ reason, g.runtime.failure? = some reason → ∀ more,
    (g.liveAll more).runtime.failure? = some reason ∧
      (g.liveAll more).runtime.manager?.map Manager.launches = g.runtime.manager?.map Manager.launches ∧
      Runtime.Refuses name reason (g.liveAll more).runtime (g.liveAll more).world

theorem barred_of_steady {d : Descriptor} (h : Runtime.Steady d g.runtime g.world) : Barred d.name g := by
  have hrun : ∀ (op : ContextOp) s runtime reason,
      ((op.run : Attempt (Context PipeSession × World ω π) Json.Value) s).1 ≠ .error (.spawnFailed runtime reason) := by
    intro op s runtime reason herror
    cases op.onStarted_run s _ herror
  refine ⟨fun _ _ _ => Runtime.failure_compile, ?_, ?_, ?_, ?_⟩
  · intro source runtime reason herror
    exact Runtime.failure_withContext (fun s => hrun (.exec source) s runtime reason) herror
  · intro source runtime reason herror
    exact Runtime.failure_withContext (fun s => hrun (.eval source) s runtime reason) herror
  · intro preamble body runtime reason herror
    rw [or_iff_not_imp_left]
    intro hbody
    refine Runtime.failure_withContext (fun s hs => hbody ?_) herror
    rw [← hs]
    exact body.mayGive_run s
  · intro reason hf more
    obtain ⟨launches, hlaunches, hfails⟩ := Runtime.fails_of_failure? h hf
    have hmore := kept_liveAll (Runtime.kept_fails d reason launches) hfails more
    obtain ⟨hfailure, hcount⟩ := Runtime.manager?_of_fails hmore
    exact ⟨hfailure, hcount.trans hlaunches.symm, Runtime.refuses_of_fails hmore⟩

/-- **A failure to start is for good.**  A manager is called in any way, its launcher answers as it likes; and a
runtime is used in any way, in a world in which anything else may go on. -/
theorem failure_is_final (launcher : Launcher ω π) (descriptor : Descriptor) (calls : List (Call π))
    (opening : Opening ω π) (occasions : List (Occasion ω π)) (world : World ω π) :
    Call.Remembers launcher descriptor (Call.runAll launcher calls (.ofDescriptor descriptor, world))
        (Call.runAll launcher.recording calls (.ofDescriptor descriptor, world.recorded [])) ∧
      Barred opening.descriptor.name (liveAll ⟨opening.runtime, world, []⟩ occasions) :=
  ⟨Call.remembers launcher descriptor world calls,
    barred_of_steady (kept_liveAll (Runtime.kept_steady _) (opening.steady world) occasions)⟩

end Stage

end Bridge

end EnginePipe
