import EnginePipe.Bridge.Runtime
import EnginePipe.Proofs.Context.Operations
import EnginePipe.Proofs.Engine.Scopes

/-!
# Values of evaluations

Whatever an evaluation gives was read from a line of an engine's output, or is null.  So it is sound,
whatever the engine and whatever it was asked.

* `Attempt.Yields`: what an attempt gives satisfies a predicate, with a rule for each way to make attempts.
* `EngineProcess.yields_evaluate`: a process gives sound values.
* `ContextOp.yields_run`: so does every operation on a context.
* `Runtime.yields_withContext`: **what a body gives, it gives in a context of its own too**.
-/

namespace EnginePipe

open Channel (Peer EngineProcess)
open Launch (World)
open Json (Value maxNesting)

/-! ### What an attempt gives -/

/-- Whatever the attempt gives satisfies the predicate. -/
def Attempt.Yields {σ α : Type} (P : α → Prop) (x : Attempt σ α) : Prop := ∀ s a, (x s).1 = .ok a → P a

namespace Attempt.Yields

variable {σ τ α β : Type} {P : α → Prop} {Q : β → Prop}

theorem pure {a : α} (h : P a) : Yields P (Pure.pure a : Attempt σ α) := by
  intro s b hb
  cases hb
  exact h

theorem throw (e : Error) : Yields P (MonadExcept.throw e : Attempt σ α) := by
  intro s a ha
  cases ha

theorem trivial {x : Attempt σ α} : Yields (fun _ => True) x := fun _ _ _ => True.intro

theorem bind {x : Attempt σ α} {f : α → Attempt σ β} (hx : Yields P x) (hf : ∀ a, P a → Yields Q (f a)) :
    Yields Q (x >>= f) := by
  intro s b hb
  obtain ⟨⟨result, s'⟩, hs⟩ : ∃ r, x s = r := ⟨_, rfl⟩
  cases result with
  | error e =>
    rw [bind_apply_of_error hs] at hb
    cases hb
  | ok a =>
    rw [bind_apply_of_ok hs] at hb
    have ha : P a := hx s a (by rw [hs])
    exact hf a ha s' b hb

theorem within {x : Attempt τ α} (hx : Yields P x) (view : σ → τ) (update : τ → σ → σ) :
    Yields P (Attempt.within view update x) := by
  intro s a ha
  exact hx (view s) a ha

end Attempt.Yields

/-! ### Lines -/

theorem Response.sound_of_ofItems {items : List Value} (h : ∀ item ∈ items, item.Sound maxNesting) :
    (ofItems items).value.Sound maxNesting := by
  unfold ofItems
  split
  · exact h _ (by simp)
  · exact h _ (by simp)
  · exact .null
  · exact .null

theorem Response.sound_of_decode {line : String} {response : Response} (h : decode line = .ok (some response)) :
    response.value.Sound maxNesting := by
  unfold decode at h
  dsimp only at h
  split at h
  · cases h
  · split at h
    · next items hread =>
      cases h
      refine sound_of_ofItems fun item hi => ?_
      exact (Engine.sound_of_mem_readArray? hread item hi).mono (by decide)
    · cases h

theorem Response.classify_eq_value {response : Response} {marker : String} {v : Value}
    (h : response.classify marker = .value v) : response.value = v := by
  unfold classify at h
  split at h
  · cases h
    rfl
  · split at h <;> cases h

theorem Reply.sound_of_ofLine {line : Option String} {marker : String} {v : Value}
    (h : ofLine line marker = .ok (.value v)) : v.Sound maxNesting := by
  cases line with
  | none => cases h
  | some line =>
    unfold ofLine at h
    cases hd : Response.decode line with
    | error fault =>
      simp only [hd] at h
      cases h
    | ok decoded =>
      simp only [hd] at h
      cases decoded with
      | none => cases h
      | some response =>
        rw [← Response.classify_eq_value (Except.ok.inj h)]
        exact Response.sound_of_decode hd

/-! ### Processes -/

section

variable {ω π α : Type} [Peer π]

theorem Channel.EngineProcess.yields_evaluate (request : Request) (marker : String) :
    (evaluate request marker : Attempt (EngineProcess π) Value).Yields (Value.Sound maxNesting) := by
  have hgiveUp (cause : EngineProcess π → Desync) :
      Attempt.Yields (Value.Sound maxNesting) (evaluate.giveUp cause) := by
    intro p v hv
    cases hv
  refine Attempt.Yields.trivial.bind fun line _ => ?_
  split
  · next v hreply => exact .pure (Reply.sound_of_ofLine hreply)
  · exact .throw _
  · exact .throw _
  · exact hgiveUp _
  · exact hgiveUp _

theorem Launch.Pool.yields_act {P : α → Prop} {x : Attempt (EngineProcess π) α} (hx : x.Yields P)
    (id : ProcessId) : (act id x).Yields P := by
  intro pool a ha
  unfold act at ha
  split at ha
  · cases ha
  · exact hx _ a ha

theorem PipeSession.yields_evaluate (session : PipeSession) (source : String) :
    (session.evaluate source : Attempt (World ω π) Value).Yields (Value.Sound maxNesting) :=
  .within (Launch.Pool.yields_act (EngineProcess.yields_evaluate _ _) _) _ _

end

/-! ### Contexts -/

namespace Context

theorem sound_of_unpack {encoded v : Value} (he : encoded.Sound maxNesting) (h : unpack encoded = .ok v) :
    v.Sound maxNesting := by
  unfold unpack at h
  split at h
  · split at h
    · next items hread =>
      cases h
      cases items with
      | nil => exact .null
      | cons item items =>
        exact (Engine.sound_of_mem_readArray? hread item List.mem_cons_self).mono (by decide)
    · cases h
  · cases h
    exact he

variable {ω π α : Type} [Peer π] (c : Context PipeSession)

theorem yields_evaluateString (source : String) :
    (c.evaluateString source : Attempt (World ω π) Value).Yields (Value.Sound maxNesting) := by
  unfold evaluateString
  cases c.session with
  | none => exact .throw _
  | some session => exact session.yields_evaluate source

theorem yields_eval (source : String) :
    (c.eval source : Attempt (World ω π) Value).Yields (Value.Sound maxNesting) := by
  unfold eval
  dsimp only
  split
  · exact .pure .null
  · refine .bind (c.yields_evaluateString _) fun encoded he => ?_
    intro w v hv
    exact sound_of_unpack he hv

theorem yields_exec (source : String) :
    (c.exec source : Attempt (World ω π) Value).Yields (Value.Sound maxNesting) :=
  c.yields_eval (Source.asFunction source)

theorem yields_call (path : String) (arguments : List Value) :
    (c.call path arguments : Attempt (World ω π) Value).Yields (Value.Sound maxNesting) :=
  c.yields_eval (Source.applied path arguments)

omit [Peer π] in
theorem yields_lift {P : α → Prop} {x : Context PipeSession → Attempt (World ω π) α}
    (hx : ∀ c, (x c).Yields P) : (lift x).Yields P := by
  intro s a ha
  exact hx s.1 s.2 a ha

/-- What is given in a context is given when it has been closed. -/
theorem yields_finish {P : α → Prop} {body : Attempt (Context PipeSession × World ω π) α}
    (hbody : body.Yields P) : (c.finish body).Yields P := by
  intro w a ha
  unfold finish at ha
  have hgiven := hbody (c, w)
  obtain ⟨⟨result, c', w'⟩, hr⟩ : ∃ r, body (c, w) = r := ⟨_, rfl⟩
  rw [hr] at ha hgiven
  dsimp only at ha
  split at ha
  · cases ha
  · cases ha
  · cases ha
    exact hgiven a rfl

end Context

/-- Every operation on a context gives a sound value. -/
theorem ContextOp.yields_run {ω π : Type} [Peer π] (op : ContextOp) :
    (op.run : Attempt (Context PipeSession × World ω π) Value).Yields (Value.Sound maxNesting) := by
  cases op with
  | evaluateString source =>
    rw [run]
    exact Context.yields_lift fun c => c.yields_evaluateString source
  | eval source =>
    rw [run]
    exact Context.yields_lift fun c => c.yields_eval source
  | exec source =>
    rw [run]
    exact Context.yields_lift fun c => c.yields_exec source
  | call path arguments =>
    rw [run]
    exact Context.yields_lift fun c => c.yields_call path arguments
  | close =>
    rw [run]
    exact Attempt.Yields.trivial.bind fun _ _ => .pure .null

/-- **What a body gives, it gives in a context of its own too.** -/
theorem Bridge.Runtime.yields_withContext {ω π α : Type} [Peer π] {P : α → Prop} (preamble : String)
    {body : Attempt (Context PipeSession × World ω π) α} (hbody : body.Yields P) :
    (withContext preamble body).Yields P :=
  Attempt.Yields.trivial.bind fun c _ => .within (c.yields_finish hbody) _ _

end EnginePipe
