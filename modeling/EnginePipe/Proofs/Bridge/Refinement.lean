import EnginePipe.Proofs.Bridge.Places

/-!
# Evaluation through the bridge is the engine's own

An expression is wrapped, written in ASCII, encoded, cut to lines, gathered, decoded, evaluated, and its
value comes back as text in a response.  All this together is one evaluation by the engine in the scope of
the context: `Answered` says what the host gets and what is left of the engine.

* `unpack_boxed`: a boxed value is unpacked as it is read.
* `Stage.exists_answered`: what an open context is answered in a reached state.
* `Stage.answered_of_eval`: **evaluation in a reached state is the engine's own evaluation**.
-/

namespace EnginePipe

open Channel (EngineView SoundTable hostResult)
open Engine (Outcome)
open Json (Value)
open Launch (ProcessId Station World)

/-! ### Values come back -/

theorem Engine.readArray_boxed {v : Value} (h : v.Sound scopeNesting) :
    Json.readArray? (boxed v) = some [v.reread] := by
  have hsound : (Value.array [v]).Sound Json.maxNesting := by
    have harray : (Value.array [v]).Sound (scopeNesting + 1) := .array fun item hi => by
      rw [List.mem_singleton.1 hi]
      exact h
    exact harray.mono (by decide)
  rw [Json.readArray?, boxed, Json.read_compact hsound]
  rfl

theorem Context.unpack_boxed {v : Value} (h : v.Sound Engine.scopeNesting) :
    unpack (.string (Engine.boxed v)) = .ok v.reread := by
  rw [unpack, Engine.readArray_boxed h]
  rfl

/-- What the host gets for a wrapped expression is what it would get for the expression itself. -/
theorem Channel.hostResult_boxed {o : Outcome} (h : o.Sound) (runtime marker : String) (context : ContextId) :
    (hostResult runtime marker context o.boxed).bind Context.unpack =
      hostResult runtime marker context o := by
  cases o with
  | value v => exact Context.unpack_boxed h
  | error message => rfl
  | exit => rfl

theorem Launch.World.Shows.soundTable [Build] {ω : Type} {d : Descriptor} {w : World ω Station} {s : Scene}
    (h : w.Shows d s) {id : ProcessId} {v : EngineView} (hv : s.views[id]? = some v) (ha : v.isAlive) :
    SoundTable v.table := by
  rw [← h.views, World.views_get?] at hv
  obtain ⟨p, hp, rfl⟩ := Option.map_eq_some_iff.1 hv
  obtain ⟨table, heard, rfl, htable⟩ := (h.get hp).1.eq_idle ha
  exact htable

/-! ### Evaluation -/

/-- What the host gets for an expression, and what is left of the engine, beside the engine's own
evaluation of the expression in the scope of the context. -/
structure Answered [Build] (marker : String) (context : ContextId) (expression : String) (before : EngineView)
    (result : Except Error Value) (after : EngineView) : Prop where
  /-- One request was received. -/
  received : after.received = before.received ++ [.escaped context (Source.asJson expression)]
  /-- A value comes back, and without real numbers in it as it was. -/
  value : ∀ v, (before.outcome context expression).1 = .value v →
    result = .ok v.reread ∧ (v.Integral → v.reread = v)
  /-- A message comes back as an error. -/
  error : ∀ message, (before.outcome context expression).1 = .error message →
    result = .error (if Response.marks marker message then .syntaxError message else .programError message)
  /-- Only an exit leaves requests and answers out of step, and it leaves the engine dead. -/
  desync : (∃ cause, result = .error (.desync cause)) ↔ (before.outcome context expression).1 = .exit
  isAlive : after.isAlive = false ↔ (before.outcome context expression).1 = .exit
  /-- The scope is what evaluation leaves. -/
  scope : after.scope context = (before.outcome context expression).2
  others : ∀ other, other ≠ context → after.scope other = before.scope other

theorem answered_of_evaluate [Build] {marker runtime : String} {context : ContextId} {v : EngineView} (ha : v.isAlive)
    (ht : SoundTable v.table) (expression : String) :
    Answered marker context expression v
      ((v.evaluate runtime marker context (Source.asJson expression)).1.bind Context.unpack)
      (v.evaluate runtime marker context (Source.asJson expression)).2 := by
  have houtcome : v.outcome context (Source.asJson expression) =
      ((v.outcome context expression).1.boxed, (v.outcome context expression).2) :=
    Engine.evaluate_asJson expression (v.scope context)
  have hsound : (v.outcome context expression).1.Sound :=
    (Engine.sound_of_evaluate _ (ht.scope context)).1
  obtain ⟨outcome, scope, hr⟩ : ∃ outcome scope, v.outcome context expression = (outcome, scope) :=
    ⟨_, _, rfl⟩
  rw [hr] at houtcome hsound
  have hresult : (v.evaluate runtime marker context (Source.asJson expression)).1.bind Context.unpack =
      hostResult runtime marker context outcome := by
    rw [EngineView.evaluate, if_pos ha, houtcome]
    exact Channel.hostResult_boxed hsound runtime marker context
  have hafter : (v.evaluate runtime marker context (Source.asJson expression)).2 =
      ⟨outcome.boxed.response?.isSome, v.table.keep context scope,
        v.received ++ [.escaped context (Source.asJson expression)]⟩ := by
    rw [EngineView.evaluate, if_pos ha, EngineView.afterEvaluate, houtcome]
  rw [hresult, hafter]
  refine ⟨rfl, ?_, ?_, ?_, ?_, ?_, fun other hne => Engine.Table.scope_keep_of_ne v.table hne scope⟩
  · rw [hr]
    rintro value rfl
    exact ⟨rfl, fun hi => Value.reread_of_integral hi hsound.wellFormed⟩
  · rw [hr]
    rintro message rfl
    rfl
  · rw [hr]
    cases outcome with
    | value value =>
      refine ⟨?_, fun h => by cases h⟩
      rintro ⟨cause, h⟩
      cases h
    | error message =>
      refine ⟨?_, fun h => by cases h⟩
      rintro ⟨cause, h⟩
      rw [hostResult] at h
      split at h <;> cases h
    | exit => exact ⟨fun _ => rfl, fun _ => ⟨_, rfl⟩⟩
  · rw [hr]
    cases outcome with
    | value value => exact ⟨fun h => (by cases h), fun h => (by cases h)⟩
    | error message => exact ⟨fun h => (by cases h), fun h => (by cases h)⟩
    | exit => exact ⟨fun _ => rfl, fun _ => rfl⟩
  · rw [hr]
    exact Engine.Table.scope_keep_self v.table context scope

/-- Evaluating an expression in an open context of a living engine. -/
theorem Context.eval_of_alive [Build] {s : Scene} {c : Context PipeSession} {session : PipeSession}
    (hs : c.session = some session) {v : EngineView} (hv : s.views[session.handle.process]? = some v)
    (ha : v.isAlive) (ht : SoundTable v.table) {source : String}
    (hsource : ¬Source.isBlank (Source.trimmed source)) :
    ∃ after, (c.eval source s).2.views = s.views.set session.handle.process after ∧
      Answered session.marker session.id (Source.trimmed source) v (c.eval source s).1 after := by
  have heval : c.eval source s =
      ((c.evaluateString (Source.asJson (Source.trimmed source)) s).1.bind unpack,
        (c.evaluateString (Source.asJson (Source.trimmed source)) s).2) := by
    have hwrapped : ContextOp.wrapped? source = some (Source.asJson (Source.trimmed source)) :=
      if_neg hsource
    rw [eval_eq, hwrapped]
  rw [heval, Scene.evaluateString_fst hs _ hv, Scene.evaluateString_snd hs, Scene.change_eq_set hv]
  exact ⟨_, rfl, answered_of_evaluate ha ht (Source.trimmed source)⟩

/-! ### In reached states -/

/-- The scope that an engine keeps for a context. -/
def Launch.World.scope [Build] {ω : Type} (w : World ω Station) (id : ProcessId) (context : ContextId) :
    Engine.Scope :=
  match w.views[id]? with
  | none => []
  | some v => v.scope context

namespace Bridge.Stage

variable [Build] {ω : Type} {d : Descriptor}

section

variable (hd : d.framing.IsSafe) (host : ω) (first : ContextId) (ops : List Op) {k : Nat} {c : Context PipeSession}
  {session : PipeSession} (hc : (reached d host first ops).contexts[k]? = some c) (hs : c.session = some session)
  (ha : (reached d host first ops).world.pool.isAlive session.handle.process)

include hd hc hs ha

/-- What an open context of a living engine is answered. -/
theorem exists_answered {source : String} (hsource : ¬Source.isBlank (Source.trimmed source)) :
    ∃ before after,
      (reached d host first ops).world.views[session.handle.process]? = some before ∧
      (c.eval source (reached d host first ops).world).2.views =
        (reached d host first ops).world.views.set session.handle.process after ∧
      Answered d.syntaxMarker c.id (Source.trimmed source) before
        (c.eval source (reached d host first ops).world).1 after := by
  have hshows := seen_reached hd host first ops
  have hseated := seated_seen d first ops
  generalize reached d host first ops = g at hshows hc ha ⊢
  generalize seen d first ops = g' at hshows hseated
  have hw := hshows.hosts.world
  rw [hshows.contexts] at hc
  obtain ⟨hid, hmarker, hlt⟩ := hseated c (List.mem_of_getElem? hc) session hs
  obtain ⟨before, hget⟩ : ∃ v, g'.world.views[session.handle.process]? = some v :=
    ⟨_, List.getElem?_eq_getElem hlt⟩
  have halive : before.isAlive := by
    rw [hw.isAlive, Scene.isAlive, hget] at ha
    exact ha
  obtain ⟨after, hviews, hanswered⟩ :=
    Context.eval_of_alive hs hget halive (hw.soundTable hget halive) hsource
  obtain ⟨hresult, hw'⟩ := Context.eval_alike (World.sessionsAlike hd) c source g.world g'.world hw
  rw [hid, hmarker, ← hresult] at hanswered
  refine ⟨before, after, by rw [hw.views]; exact hget, ?_, hanswered⟩
  have h := hw'.views.trans hviews
  rwa [← hw.views] at h

end

/-- **Evaluation in a reached state is the engine's own evaluation**: a blank expression is null and
nothing is sent, and any other is evaluated once by the engine of the context and by no other. -/
theorem answered_of_eval (hd : d.framing.IsSafe) (host : ω) (first : ContextId) (ops : List Op) {k : Nat}
    {c : Context PipeSession} {session : PipeSession}
    (hc : (reached d host first ops).contexts[k]? = some c) (hs : c.session = some session)
    (ha : (reached d host first ops).world.pool.isAlive session.handle.process) (source : String) :
    (Source.isBlank (Source.trimmed source) →
      c.eval source (reached d host first ops).world = (.ok .null, (reached d host first ops).world)) ∧
    (¬Source.isBlank (Source.trimmed source) → ∃ before after,
      (reached d host first ops).world.views[session.handle.process]? = some before ∧
      (c.eval source (reached d host first ops).world).2.views =
        (reached d host first ops).world.views.set session.handle.process after ∧
      Answered d.syntaxMarker c.id (Source.trimmed source) before
        (c.eval source (reached d host first ops).world).1 after ∧
      (taken ops ≤ UInt64.size → ∀ j other otherSession, j ≠ k →
        (reached d host first ops).contexts[j]? = some other → other.session = some otherSession →
        (c.eval source (reached d host first ops).world).2.scope otherSession.handle.process other.id =
          (reached d host first ops).world.scope otherSession.handle.process other.id)) := by
  refine ⟨fun hblank => by rw [Context.eval_of_blank c hblank]; rfl, fun hsource => ?_⟩
  obtain ⟨before, after, hbefore, hviews, hanswered⟩ := exists_answered hd host first ops hc hs ha hsource
  refine ⟨before, after, hbefore, hviews, hanswered, ?_⟩
  intro htaken j other otherSession hne hother hotherSession
  have hshows := seen_reached hd host first ops
  rw [hshows.contexts] at hc hother
  have hids : other.id ≠ c.id := (keyed_seen d first ops).ne_of_ne htaken hother hc hne
  rw [World.scope, World.scope, hviews]
  by_cases hprocess : otherSession.handle.process = session.handle.process
  · have hlt := (List.getElem?_eq_some_iff.1 hbefore).1
    rw [hprocess, List.getElem?_set_self hlt, hbefore]
    exact hanswered.others other.id hids
  · rw [List.getElem?_set_ne (Ne.symm hprocess)]

/-- The first context, at the first engine. -/
def firstContext : Context PipeSession :=
  ⟨1, sharedToy.name, some ⟨1, sharedToy.syntaxMarker, .shared 0⟩⟩

/-- The first engine after an assignment in the first context. -/
def assigned : EngineView := ⟨true, [(1, [("x", .integer 1)])], [.escaped 1 "x = 1"]⟩

theorem evaluate_fresh :
    EngineView.fresh.evaluate "toy" "SyntaxError" 1 "x = 1" = (.ok (.integer 1), assigned) := by
  have houtcome : EngineView.fresh.outcome 1 "x = 1" = (.value (.integer 1), [("x", .integer 1)]) :=
    Engine.evaluate_assignment_one []
  rw [EngineView.evaluate, EngineView.afterEvaluate, houtcome]
  rfl

theorem seen_compile_assignment :
    seen sharedToy 1 [.compile "x = 1"] =
      ⟨some 0, { runtime := "toy", views := [assigned], nextContext := 2 }, [firstContext]⟩ := by
  have hanswer : firstContext.evaluateString "x = 1"
      ({ runtime := "toy", views := [.fresh], nextContext := 2 } : Scene) =
      (.ok (.integer 1), { runtime := "toy", views := [assigned], nextContext := 2 }) := by
    have hsession : firstContext.session = some ⟨1, "SyntaxError", .shared 0⟩ := rfl
    refine Prod.ext ?_ ?_
    · rw [Scene.evaluateString_fst hsession (v := .fresh) _ rfl, evaluate_fresh]
    · rw [Scene.evaluateString_snd hsession, Scene.change_eq_set (v := .fresh) rfl, evaluate_fresh]
      rfl
  exact Stage.enroll_of_ok (Scene.compile_of_ok hanswer)

/-- After the assignment the first context is open and its engine lives. -/
theorem open_after_assignment :
    (reached sharedToy () 1 [.compile "x = 1"]).contexts[0]? = some firstContext ∧
      (reached sharedToy () 1 [.compile "x = 1"]).world.pool.isAlive 0 := by
  have hshows := seen_reached isSafe_sharedToy () 1 [.compile "x = 1"]
  rw [seen_compile_assignment] at hshows
  constructor
  · rw [hshows.contexts]
    rfl
  · rw [hshows.hosts.world.isAlive]
    rfl

end Bridge.Stage

attribute [local instance] Build.plain in
theorem Bridge.Stage.eval_after_assignment :
    (firstContext.eval " x; " (reached sharedToy () 1 [.compile "x = 1"]).world).1 = .ok (.integer 1) := by
  have hshows := seen_reached isSafe_sharedToy () 1 [.compile "x = 1"]
  rw [seen_compile_assignment] at hshows
  obtain ⟨hcontext, halive⟩ := open_after_assignment
  obtain ⟨-, hanswered⟩ := answered_of_eval isSafe_sharedToy () 1 [.compile "x = 1"] hcontext rfl halive " x; "
  obtain ⟨before, after, hbefore, -, hanswered, -⟩ := hanswered (by decide)
  rw [hshows.hosts.world.views] at hbefore
  cases hbefore
  have houtcome : assigned.outcome 1 "x" = (.value (.integer 1), [("x", .integer 1)]) := by
    exact Engine.evaluate_name_x _
  have hvalue := hanswered.value (.integer 1) (congrArg Prod.fst houtcome)
  exact hvalue.1

end EnginePipe
