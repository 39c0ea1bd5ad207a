import EnginePipe.Bridge.Runtime
import EnginePipe.Proofs.Context.Operations

/-!
# Failures of contexts

What is done with a context can fail in many ways, but not as the start of an engine does.  So where an engine
could not be started, no context was open.

* `Attempt.OnStarted`: an attempt that does not fail as a start does, with a rule for each way to make attempts.
* `ContextOp.onStarted_run`, `Context.onStarted_start`: operations on contexts and their beginnings are such.
* `Context.body_of_finish`: **only the body brings such a failure into a context of its own**.
* `Body.mayGive_run`: a body that is given step by step gives one of its answers.
-/

namespace EnginePipe

open Channel (Peer EngineProcess Transport)
open Json (Value)
open Launch (World)

/-- Whether an engine could not be started. -/
def Error.isOfStart : Error → Bool
  | spawnFailed _ _ => true
  | _ => false

/-! ### Attempts on engines that were started -/

/-- No failure of the attempt is that of a start. -/
def Attempt.OnStarted {σ α : Type} (x : Attempt σ α) : Prop := ∀ s e, (x s).1 = .error e → e.isOfStart = false

namespace Attempt.OnStarted

variable {σ τ α β : Type}

theorem pure (a : α) : OnStarted (Pure.pure a : Attempt σ α) := by
  intro s e he
  cases he

theorem throw {e : Error} (h : e.isOfStart = false) : OnStarted (MonadExcept.throw e : Attempt σ α) := by
  intro s e' he
  cases he
  exact h

theorem bind {x : Attempt σ α} {f : α → Attempt σ β} (hx : x.OnStarted) (hf : ∀ a, (f a).OnStarted) :
    OnStarted (x >>= f) := by
  intro s e he
  obtain ⟨⟨result, s'⟩, hs⟩ : ∃ r, x s = r := ⟨_, rfl⟩
  cases result with
  | ok a =>
    rw [bind_apply_of_ok hs] at he
    exact hf a s' e he
  | error e' =>
    rw [bind_apply_of_error hs] at he
    cases he
    exact hx s e (by rw [hs])

theorem within {x : Attempt τ α} (hx : x.OnStarted) (view : σ → τ) (update : τ → σ → σ) :
    OnStarted (Attempt.within view update x) :=
  fun s => hx (view s)

end Attempt.OnStarted

/-! ### Processes -/

section

variable {ω π α : Type} [Peer π]

theorem Channel.Transport.onStarted_send (request : Request) :
    (send request : Attempt (Transport π) Unit).OnStarted := by
  intro t e he
  unfold send at he
  split at he
  · cases he
    rfl
  · split at he
    · cases he
      rfl
    · split at he <;> cases he
      rfl

theorem Channel.Transport.onStarted_receive : (receive : Attempt (Transport π) (Option String)).OnStarted := by
  intro t e he
  unfold receive at he
  split at he
  · cases he
    rfl
  · split at he
    · cases he
    · split at he <;> cases he
      rfl

namespace Channel.EngineProcess

theorem onStarted_exchange (request : Request) :
    (exchange request : Attempt (EngineProcess π) (Option String)).OnStarted := by
  have hround := (Transport.onStarted_send (π := π) request).bind fun _ => Transport.onStarted_receive
  intro p e he
  unfold exchange at he
  split at he
  · have hthis := hround p.transport
    split at he
    · cases he
    · next hr =>
      cases he
      exact hthis e (congrArg Prod.fst hr)
  · cases he
    rfl

omit [Peer π] in
theorem onStarted_giveUp (cause : EngineProcess π → Desync) :
    Attempt.OnStarted (evaluate.giveUp cause : Attempt (EngineProcess π) α) := by
  intro p e he
  cases he
  rfl

theorem onStarted_evaluate (request : Request) (marker : String) :
    (evaluate request marker : Attempt (EngineProcess π) Value).OnStarted := by
  refine (onStarted_exchange request).bind fun line => ?_
  split
  · exact .pure _
  · exact .throw rfl
  · exact .throw rfl
  · exact onStarted_giveUp _
  · exact onStarted_giveUp _

theorem onStarted_teardown (context : ContextId) :
    (teardown context : Attempt (EngineProcess π) Unit).OnStarted := by
  refine (onStarted_exchange _).bind fun line => ?_
  split
  · exact .pure _
  · exact onStarted_giveUp _

end Channel.EngineProcess

theorem PipeSession.onStarted_onProcess {x : Attempt (EngineProcess π) α} (hx : x.OnStarted)
    (id : Launch.ProcessId) : (onProcess id x : Attempt (World ω π) α).OnStarted := by
  refine .within ?_ _ _
  intro pool e he
  unfold Launch.Pool.act at he
  split at he
  · cases he
    rfl
  · exact hx _ e he

theorem PipeSession.onStarted_close (session : PipeSession) :
    (session.close : Attempt (World ω π) Unit).OnStarted := by
  intro w
  unfold close
  split
  · split
    · exact onStarted_onProcess (EngineProcess.onStarted_teardown _) _ w
    · intro e he
      cases he
  · intro e he
    cases he

end

/-! ### Contexts -/

namespace Context

variable {ω π α : Type} [Peer π] (c : Context PipeSession)

theorem onStarted_evaluateString (source : String) :
    (c.evaluateString source : Attempt (World ω π) Value).OnStarted := by
  unfold evaluateString
  cases c.session with
  | none => exact .throw rfl
  | some session => exact PipeSession.onStarted_onProcess (EngineProcess.onStarted_evaluate _ _) _

theorem onStarted_eval (source : String) : (c.eval source : Attempt (World ω π) Value).OnStarted := by
  unfold eval
  dsimp only
  split
  · exact .pure _
  · refine (c.onStarted_evaluateString _).bind fun encoded => ?_
    intro w e he
    dsimp only [unpack] at he
    split at he
    · split at he <;> cases he
      rfl
    · cases he

theorem onStarted_release : (c.release : Attempt (World ω π) Unit).OnStarted := by
  unfold release
  cases c.session with
  | none => exact .pure _
  | some session => exact session.onStarted_close

omit [Peer π] in
theorem onStarted_lift {x : Context PipeSession → Attempt (World ω π) α} (hx : ∀ c, (x c).OnStarted) :
    (lift x).OnStarted :=
  fun s => hx s.1 s.2

/-- The beginning of a context does not fail as a start does. -/
theorem onStarted_start (runtime : String) (session : PipeSession) (preamble : String) :
    (start runtime session preamble : Attempt (World ω π) (Context PipeSession)).OnStarted := by
  intro w e he
  unfold start at he
  dsimp only at he
  split at he
  · cases he
  · next hr =>
    cases he
    exact onStarted_evaluateString _ preamble w e (congrArg Prod.fst hr)

/-- **Only the body brings the failure of a start into a context of its own.** -/
theorem body_of_finish {body : Attempt (Context PipeSession × World ω π) α} {w : World ω π} {e : Error}
    (he : e.isOfStart) (h : (c.finish body w).1 = .error e) : (body (c, w)).1 = .error e := by
  unfold finish at h
  obtain ⟨⟨result, c', w'⟩, hr⟩ : ∃ r, body (c, w) = r := ⟨_, rfl⟩
  have hreleased := c'.onStarted_release w'
  rw [hr] at h ⊢
  dsimp only at h
  split at h
  · cases h
    rfl
  · next hreleased' =>
    cases h
    rw [hreleased e hreleased'] at he
    cases he
  · cases h

end Context

/-- No operation on a context fails as a start does. -/
theorem ContextOp.onStarted_run {ω π : Type} [Peer π] (op : ContextOp) :
    (op.run : Attempt (Context PipeSession × World ω π) Value).OnStarted := by
  cases op with
  | evaluateString source =>
    rw [run]
    exact Context.onStarted_lift fun c => c.onStarted_evaluateString source
  | eval source =>
    rw [run]
    exact Context.onStarted_lift fun c => c.onStarted_eval source
  | exec source =>
    rw [run]
    exact Context.onStarted_lift fun c => c.onStarted_eval (Source.asFunction source)
  | call path arguments =>
    rw [run]
    exact Context.onStarted_lift fun c => c.onStarted_eval (Source.applied path arguments)
  | close =>
    rw [run]
    exact Attempt.OnStarted.bind (fun s => s.1.onStarted_release s.2) fun _ => .pure _

/-! ### Bodies -/

/-- Whether a body may end with an answer. -/
def Body.MayGive (answer : Except Error Value) : Body → Prop
  | .done result => result = answer
  | .act _ next => ∃ given, (next given).MayGive answer

theorem Body.mayGive_run {s σ : Type} [Session s σ] (body : Body) (w : Context s × σ) :
    body.MayGive (body.run w).1 := by
  induction body generalizing w with
  | done result => rfl
  | act op next ih => exact ⟨_, ih _ _⟩

end EnginePipe
