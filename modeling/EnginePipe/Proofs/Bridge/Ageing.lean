import EnginePipe.Bridge.Runtime
import EnginePipe.Proofs.Channel.Tapping
import EnginePipe.Proofs.Context.Operations
import EnginePipe.Proofs.Launch.Failures

/-!
# Dead processes stay dead

A process is reached through contexts, through the slot of a manager, and when it is started.  None of this
makes a dead one alive, and only starting adds one, to the end.  So with a world one knows of all later worlds
which processes cannot come back.

* `World.Ages`, `World.Serves`: what may lie between two worlds, if processes are started and if none is.
* `ContextOp.serves`, `Context.serves_start`, `Context.serves_finish`: contexts only have processes serve.
* `Manager.ages_launch`, `Manager.ages_start`: managers may also start them.
-/

namespace EnginePipe

open Channel (Peer EngineProcess)
open Launch (Handle Launcher Manager Pool ProcessId World)

/-! ### One process -/

namespace Channel.EngineProcess

variable {π : Type} [Peer π]

theorem isAlive_evaluate_of_dead {p : EngineProcess π} (h : p.isAlive = false) (request : Request)
    (marker : String) : (evaluate request marker p).2.isAlive = false := by
  rw [evaluate, Attempt.bind_apply_of_error (exchange_of_dead h request)]
  rfl

theorem isAlive_teardown_of_dead {p : EngineProcess π} (h : p.isAlive = false) (context : ContextId) :
    (teardown context p).2.isAlive = false := by
  rw [teardown, Attempt.bind_apply_of_error (exchange_of_dead h _)]
  rfl

end Channel.EngineProcess

/-! ### Worlds -/

namespace Launch

variable {ω π α : Type} [Peer π]

namespace Pool

theorem isAlive_of_get? {pool : Pool π} {id : ProcessId} {p : EngineProcess π} (h : pool.get? id = some p) :
    pool.isAlive id = p.isAlive := by
  rw [isAlive, h]
  rfl

end Pool

namespace World

/-- No process was started in between, and none was made alive. -/
structure Serves (w w' : World ω π) : Prop where
  length : w'.pool.processes.length = w.pool.processes.length
  dead : ∀ id, w.pool.isAlive id = false → w'.pool.isAlive id = false

/-- Processes may have been started in between, but none was made alive again. -/
structure Ages (w w' : World ω π) : Prop where
  length : w.pool.processes.length ≤ w'.pool.processes.length
  dead : ∀ id < w.pool.processes.length, w.pool.isAlive id = false → w'.pool.isAlive id = false

variable {w w' w'' : World ω π}

theorem Serves.of_pool (h : w'.pool = w.pool) : w.Serves w' := by
  refine ⟨by rw [h], ?_⟩
  intro id hd
  rwa [h]

theorem Serves.refl (w : World ω π) : w.Serves w := .of_pool rfl

theorem Serves.trans (h : w.Serves w') (h' : w'.Serves w'') : w.Serves w'' :=
  ⟨h'.length.trans h.length, fun id hd => h'.dead id (h.dead id hd)⟩

theorem Serves.ages (h : w.Serves w') : w.Ages w' := ⟨Nat.le_of_eq h.length.symm, fun id _ => h.dead id⟩

theorem Ages.of_pool (h : w'.pool = w.pool) : w.Ages w' := (Serves.of_pool h).ages

theorem Ages.refl (w : World ω π) : w.Ages w := .of_pool rfl

/-- What is done with a process may not make it alive. -/
theorem serves_update {f : EngineProcess π → EngineProcess π} (hf : ∀ p, p.isAlive = false → (f p).isAlive = false)
    (id : ProcessId) (w : World ω π) : w.Serves { w with pool := w.pool.update id f } where
  length := Pool.length_update w.pool id f
  dead := by
    intro other hd
    by_cases h : other = id
    · subst h
      show (((w.pool.update other f).get? other).any EngineProcess.isAlive) = false
      rw [Pool.get?_update_self]
      cases hp : w.pool.get? other with
      | none => rfl
      | some p =>
        rw [Pool.isAlive_of_get? hp] at hd
        exact hf p hd
    · show (((w.pool.update id f).get? other).any EngineProcess.isAlive) = false
      rw [Pool.get?_update_of_ne h]
      exact hd

theorem serves_onProcess {x : Attempt (EngineProcess π) α} (hx : ∀ p, p.isAlive = false → (x p).2.isAlive = false)
    (id : ProcessId) (w : World ω π) : w.Serves (PipeSession.onProcess id x w).2 where
  length := Pool.length_act w.pool id x
  dead := by
    intro other hd
    show ((Pool.act id x w.pool).2.get? other).any EngineProcess.isAlive = false
    by_cases h : other = id
    · subst h
      cases hp : w.pool.get? other with
      | none =>
        rw [Pool.act, hp]
        exact hd
      | some p =>
        rw [Pool.act_of_get hp]
        rw [Pool.isAlive_of_get? hp] at hd
        have hlt := (List.getElem?_eq_some_iff.mp hp).1
        simp [Pool.get?, List.getElem?_set_self hlt, hx p hd]
    · rw [Pool.get?_act_of_ne h]
      exact hd

theorem ages_start (p : EngineProcess π) (host : ω) (w : World ω π) :
    w.Ages { w with host, pool := (w.pool.start p).2 } where
  length := by simp [Pool.start]
  dead := by
    intro id hid hd
    show (((w.pool.start p).2.get? id).any EngineProcess.isAlive) = false
    rw [Pool.get?_start_of_lt hid]
    exact hd

end World

end Launch

/-! ### Contexts -/

section

variable {ω π α : Type} [Peer π]

theorem PipeSession.serves_evaluate (session : PipeSession) (source : String) (w : World ω π) :
    w.Serves (session.evaluate source w).2 :=
  World.serves_onProcess (fun _ h => EngineProcess.isAlive_evaluate_of_dead h _ _) _ w

theorem PipeSession.serves_close (session : PipeSession) (w : World ω π) :
    w.Serves (session.close w).2 := by
  unfold close
  cases session.handle with
  | shared id =>
    dsimp only
    split
    · exact World.serves_onProcess (fun _ h => EngineProcess.isAlive_teardown_of_dead h _) id w
    · exact .refl w
  | owned id => exact World.serves_update (fun _ _ => EngineProcess.isAlive_close _) id w

namespace Context

theorem serves_evaluateString (c : Context PipeSession) (source : String) (w : World ω π) :
    w.Serves (c.evaluateString source w).2 := by
  unfold evaluateString
  cases c.session with
  | none => exact .refl w
  | some session => exact session.serves_evaluate source w

theorem serves_release (c : Context PipeSession) (w : World ω π) : w.Serves (c.release w).2 := by
  unfold release
  cases c.session with
  | none => exact .refl w
  | some session => exact session.serves_close w

theorem serves_start (runtime : String) (session : PipeSession) (preamble : String) (w : World ω π) :
    w.Serves (start runtime session preamble w).2 := by
  have hsent := serves_evaluateString ⟨Session.id (World ω π) session, runtime, some session⟩ preamble w
  obtain ⟨⟨result, w'⟩, hr⟩ :
    ∃ r, evaluateString ⟨Session.id (World ω π) session, runtime, some session⟩ preamble w = r := ⟨_, rfl⟩
  rw [hr] at hsent
  cases result with
  | ok v =>
    rw [start_of_ok hr]
    exact hsent
  | error e =>
    rw [start_of_error hr]
    exact hsent.trans (serves_release _ w')

/-- A body that only has processes serve is finished so. -/
theorem serves_finish {c : Context PipeSession} {body : Attempt (Context PipeSession × World ω π) α}
    (hbody : ∀ s : Context PipeSession × World ω π, s.2.Serves (body s).2.2) (w : World ω π) :
    w.Serves (c.finish body w).2 := by
  have hdone := hbody (c, w)
  unfold finish
  obtain ⟨⟨result, c', w'⟩, hr⟩ : ∃ r, body (c, w) = r := ⟨_, rfl⟩
  rw [hr] at hdone ⊢
  have hend := hdone.trans (serves_release c' w')
  dsimp only at hend ⊢
  obtain ⟨⟨released, w''⟩, hreleased⟩ : ∃ r, c'.release w' = r := ⟨_, rfl⟩
  rw [hreleased] at hend ⊢
  cases result <;> cases released <;> exact hend

end Context

theorem ContextOp.serves (op : ContextOp) (s : Context PipeSession × World ω π) :
    s.2.Serves (op.run s).2.2 := by
  obtain ⟨c, w⟩ := s
  by_cases hop : op.isClose
  · cases op with
    | close =>
      rw [run_close]
      exact c.serves_release w
    | _ => cases hop
  · rw [run_eq c (Bool.eq_false_iff.2 hop)]
    cases op.text? with
    | none => exact .refl w
    | some text => exact c.serves_evaluateString text w

theorem Body.serves (body : Body) (s : Context PipeSession × World ω π) : s.2.Serves (body.run s).2.2 := by
  induction body generalizing s with
  | done result => exact .refl s.2
  | act op next ih => exact (op.serves s).trans (ih _ _)

end

/-! ### Managers -/

namespace Launch.Manager

variable {ω π : Type} [Peer π] {m : Manager} {w : World ω π}

theorem ages_launch (launcher : Launcher ω π) (m : Manager) (w : World ω π) :
    w.Ages (launch launcher (m, w)).2.2 := by
  cases hf : m.failure with
  | some reason =>
    rw [launch_of_failure hf]
    exact .refl w
  | none =>
    cases hl : launcher m.descriptor w.host with
    | mk result host =>
      cases result with
      | ok p =>
        rw [launch_of_ok hf hl]
        exact World.ages_start p host w
      | error e =>
        rw [launch_of_error hf hl]
        exact .of_pool rfl

theorem ages_start (launcher : Launcher ω π) (m : Manager) (w : World ω π) :
    w.Ages (start launcher (m, w)).2.2 := by
  have hstate : (start launcher (m, w)).2 = ((Call.start : Call π).run launcher (m, w)).2 := by
    rw [Call.run_start]
  rw [hstate]
  cases hn : (Call.start : Call π).needsProcess m w with
  | true =>
    have hlaunch := ages_launch launcher m w
    rw [Call.run_of_needs hn]
    obtain ⟨⟨result, m', w'⟩, hl⟩ : ∃ a, launch launcher (m, w) = a := ⟨_, rfl⟩
    rw [hl] at hlaunch ⊢
    cases result <;> exact hlaunch
  | false =>
    obtain ⟨_, -, hrun⟩ := Call.run_of_living launcher rfl hn
    rw [hrun]
    exact .refl w

theorem serves_finishReset (target : Option ProcessId) (w : World ω π) : w.Serves (finishReset target w) := by
  cases target with
  | none => exact .refl w
  | some id => exact World.serves_update (fun _ _ => EngineProcess.isAlive_sever _) id w

theorem serves_finishShutdown (target : Option ProcessId) (isBusy : ProcessId → Bool) (w : World ω π) :
    w.Serves (finishShutdown target isBusy w) := by
  cases target with
  | none => exact .refl w
  | some id =>
    refine World.serves_update (fun p _ => ?_) id w
    split
    · exact EngineProcess.isAlive_sever p
    · exact EngineProcess.isAlive_close p

end Launch.Manager

/-! ### Runtimes -/

namespace Bridge

variable {ω π α : Type} [Peer π]

namespace External

omit [Peer π] in
@[simp] theorem pool_probed (x : External ω π) (w : World ω π) : (x.probed w).2.pool = w.pool := by
  unfold probed
  split <;> rfl

theorem serves_reset (x : External ω π) (w : World ω π) : w.Serves (x.reset w) := by
  unfold reset
  split
  · exact Manager.serves_finishReset _ w
  · exact .refl w

theorem serves_shutdown (x : External ω π) (w : World ω π) : w.Serves (x.shutdown w).2 := by
  unfold shutdown
  split
  · exact Manager.serves_finishShutdown _ _ w
  · exact .refl w

end External

end Bridge

end EnginePipe
