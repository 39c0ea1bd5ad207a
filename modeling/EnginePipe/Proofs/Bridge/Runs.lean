import EnginePipe.Proofs.Bridge.Hosting

/-!
# Runs of a runtime

What is done with one runtime, one thing after another: contexts are opened, used and closed, something is
done in contexts that are closed at once, and the engine is ended.  A run over toy engines is seen as a run
of scenes, and on scenes an invariant is kept by a run once it is kept by

* taking a key and finding an engine for it,
* an operation on a context,
* ending the engine in the slot.

A context that is closed at once counts as one more context meanwhile.

* `Op`, `Stage`, `Stage.step`, `Stage.reached`: the runs.
* `Stage.seen_reached`: **a run is seen as a run of scenes**.
* `Stage.Kept.run`: **what each of the three steps keeps, a run keeps**.
-/

namespace EnginePipe.Bridge

open Channel (EngineView)
open Json (Value)
open Launch (Handle ProcessId Station World toyLauncher)

/-- Something that is done with a runtime and the contexts it opened. -/
inductive Op where
  | compile (preamble : String)
  /-- An operation on the context that was opened as the `k`th, if there is one. -/
  | act (k : Nat) (op : ContextOp)
  | exec (source : String)
  | eval (source : String)
  | withContext (preamble : String) (body : Body)
  | reset
  | shutdown

/-- Whether a key for a context is taken. -/
def Op.takesKey : Op → Bool
  | compile _ => true
  | exec _ => true
  | eval _ => true
  | withContext _ _ => true
  | _ => false

/-- A runtime, its world, and the contexts it opened, closed ones included. -/
structure Stage (ρ σ : Type) where
  runtime : ρ
  world : σ
  contexts : List (Context PipeSession) := []

namespace Stage

section

variable {ρ σ α : Type}

/-- After something is done with the runtime. -/
def attempt (x : Attempt (ρ × σ) α) (g : Stage ρ σ) : Stage ρ σ where
  runtime := (x (g.runtime, g.world)).2.1
  world := (x (g.runtime, g.world)).2.2
  contexts := g.contexts

/-- After a context is opened, if that succeeds. -/
def enroll (x : Attempt (ρ × σ) (Context PipeSession)) (g : Stage ρ σ) : Stage ρ σ :=
  { g.attempt x with contexts := g.contexts ++ (x (g.runtime, g.world)).1.toOption.toList }

theorem enroll_of_ok {x : Attempt (ρ × σ) (Context PipeSession)} {g : Stage ρ σ} {c : Context PipeSession}
    {r : ρ} {w : σ} (h : x (g.runtime, g.world) = (.ok c, r, w)) : g.enroll x = ⟨r, w, g.contexts ++ [c]⟩ := by
  rw [enroll, attempt, h]
  rfl

/-- After an operation on a context. -/
def act [Session PipeSession σ] (k : Nat) (op : ContextOp) (g : Stage ρ σ) : Stage ρ σ :=
  match g.contexts[k]? with
  | none => g
  | some c =>
    { g with
      world := (op.run (c, g.world)).2.2
      contexts := g.contexts.set k (op.run (c, g.world)).2.1 }

end

variable [Build] {ω : Type}

/-- Does one thing. -/
def step {π : Type} [Channel.Peer π] (op : Op) (g : Stage (Runtime ω π) (World ω π)) :
    Stage (Runtime ω π) (World ω π) :=
  match op with
  | .compile preamble => g.enroll (Runtime.compile preamble)
  | .act k op => g.act k op
  | .exec source => g.attempt (Runtime.exec source)
  | .eval source => g.attempt (Runtime.eval source)
  | .withContext preamble body => g.attempt (Runtime.withContext preamble body.run)
  | .reset => { g with world := g.runtime.reset g.world }
  | .shutdown =>
    { g with
      runtime := (g.runtime.shutdown g.world).1
      world := (g.runtime.shutdown g.world).2 }

/-- What is reached from a runtime over toy engines that has not started any. -/
def reached (d : Descriptor) (host : ω) (first : ContextId) (ops : List Op) :
    Stage (Runtime ω Station) (World ω Station) :=
  ops.foldl (fun g op => g.step op)
    ⟨.external (.ofLauncher d toyLauncher), { host, nextContext := first }, []⟩

/-! ### Runs of scenes -/

/-- The slot of a runtime and a scene. -/
abbrev Seen : Type := Stage (Option ProcessId) Scene

/-- Does one thing, on scenes. -/
def stepSeen (d : Descriptor) (op : Op) (g : Seen) : Seen :=
  match op with
  | .compile preamble => g.enroll (Scene.compile d preamble)
  | .act k op => g.act k op
  | .exec source => g.attempt (Scene.withContext d "" (ContextOp.exec source).run)
  | .eval source => g.attempt (Scene.withContext d "" (ContextOp.eval source).run)
  | .withContext preamble body => g.attempt (Scene.withContext d preamble body.run)
  | .reset => { g with world := g.world.sever g.runtime }
  | .shutdown => { g with runtime := none, world := g.world.sever g.runtime }

/-- What is reached, on scenes. -/
def seen (d : Descriptor) (first : ContextId) (ops : List Op) : Seen :=
  ops.foldl (fun g op => g.stepSeen d op) ⟨none, { runtime := d.name, nextContext := first }, []⟩

/-- What is seen of a stage. -/
structure Shows (d : Descriptor) (g : Stage (Runtime ω Station) (World ω Station)) (g' : Seen) : Prop where
  hosts : Runtime.Hosts d (g.runtime, g.world) (g'.runtime, g'.world)
  contexts : g.contexts = g'.contexts

section

variable {d : Descriptor} {g : Stage (Runtime ω Station) (World ω Station)} {g' : Seen} (h : g.Shows d g')

include h

theorem Shows.attempt {α : Type} {x : Attempt (Runtime ω Station × World ω Station) α}
    {y : Attempt (Option ProcessId × Scene) α} (hxy : Attempt.Alike (Runtime.Hosts d) x y) :
    (g.attempt x).Shows d (g'.attempt y) :=
  ⟨(hxy _ _ h.hosts).2, h.contexts⟩

theorem Shows.enroll {x : Attempt (Runtime ω Station × World ω Station) (Context PipeSession)}
    {y : Attempt (Option ProcessId × Scene) (Context PipeSession)}
    (hxy : Attempt.Alike (Runtime.Hosts d) x y) : (g.enroll x).Shows d (g'.enroll y) := by
  obtain ⟨hr, hhosts⟩ := hxy _ _ h.hosts
  refine ⟨hhosts, ?_⟩
  rw [Stage.enroll, Stage.enroll, h.contexts, hr]

theorem Shows.act (hd : d.framing.IsSafe) (k : Nat) (op : ContextOp) : (g.act k op).Shows d (g'.act k op) := by
  rw [Stage.act, Stage.act, h.contexts]
  cases g'.contexts[k]? with
  | none => exact h
  | some c =>
    obtain ⟨-, hc, hw⟩ :=
      ContextOp.run_alike (World.sessionsAlike hd) op (c, g.world) (c, g'.world) ⟨rfl, h.hosts.world⟩
    refine ⟨h.hosts.beside hw, ?_⟩
    dsimp only
    rw [hc]

/-- **One thing that is done is seen as the same thing done on the scene.** -/
theorem Shows.step (hd : d.framing.IsSafe) (op : Op) : (g.step op).Shows d (g'.stepSeen d op) := by
  have hsessions := World.sessionsAlike (ω := ω) hd
  cases op with
  | compile preamble => exact h.enroll (Runtime.compile_alike hd preamble)
  | act k op => exact h.act hd k op
  | exec source =>
    have hexec : Runtime.exec (ω := ω) (π := Station) source =
      Runtime.withContext "" (ContextOp.exec source).run := rfl
    rw [Stage.step, hexec]
    exact h.attempt (Runtime.withContext_alike hd "" (ContextOp.run_alike hsessions (.exec source)))
  | eval source =>
    have heval : Runtime.eval (ω := ω) (π := Station) source =
      Runtime.withContext "" (ContextOp.eval source).run := rfl
    rw [Stage.step, heval]
    exact h.attempt (Runtime.withContext_alike hd "" (ContextOp.run_alike hsessions (.eval source)))
  | withContext preamble body =>
    exact h.attempt (Runtime.withContext_alike hd preamble (Body.run_alike hsessions body))
  | reset => exact ⟨Runtime.reset_hosts h.hosts, h.contexts⟩
  | shutdown => exact ⟨Runtime.shutdown_hosts h.hosts, h.contexts⟩

end

/-- **A run is seen as a run of scenes.** -/
theorem seen_reached {d : Descriptor} (hd : d.framing.IsSafe) (host : ω) (first : ContextId)
    (ops : List Op) : (reached d host first ops).Shows d (seen d first ops) := by
  have hstart : Shows d (⟨.external (.ofLauncher d toyLauncher), { host, nextContext := first }, []⟩ :
      Stage (Runtime ω Station) (World ω Station))
      ⟨none, { runtime := d.name, nextContext := first }, []⟩ :=
    ⟨Runtime.hosts_ofLauncher d host first, rfl⟩
  rw [reached, seen]
  generalize (⟨.external (.ofLauncher d toyLauncher), { host, nextContext := first }, []⟩ :
    Stage (Runtime ω Station) (World ω Station)) = g at hstart
  generalize (⟨none, { runtime := d.name, nextContext := first }, []⟩ : Seen) = g' at hstart
  induction ops generalizing g g' with
  | nil => exact hstart
  | cons op ops ih => exact ih _ _ (hstart.step hd op)

theorem seen_append (d : Descriptor) (first : ContextId) (ops ops' : List Op) :
    seen d first (ops ++ ops') = ops'.foldl (fun g op => g.stepSeen d op) (seen d first ops) :=
  List.foldl_append

/-! ### Invariants of runs -/

/-- How many keys were taken. -/
def taken (ops : List Op) : Nat := ops.countP Op.takesKey

/-- An invariant of the number of keys taken, the slot, the scene and the contexts is kept by each step. -/
structure Kept (d : Descriptor)
    (I : Nat → Option ProcessId → Scene → List (Context PipeSession) → Prop) : Prop where
  /-- A key is taken, an engine is found, and the first source text is evaluated. -/
  enter : ∀ {n slot s cs} (preamble : String), I n slot s cs →
    I (n + 1) (s.takeId.2.attach d.isShared slot).2.1
      ((Scene.newcomer d slot s).evaluateString preamble (s.takeId.2.attach d.isShared slot).2.2).2
      (cs ++ [Scene.newcomer d slot s])
  /-- Something is done with a context. -/
  act : ∀ {n p s pre post} {c : Context PipeSession} (op : ContextOp), I n p s (pre ++ c :: post) →
    I n p (op.run (c, s)).2.2 (pre ++ (op.run (c, s)).2.1 :: post)
  /-- A closed context is forgotten. -/
  leave : ∀ {n p s cs} {c : Context PipeSession}, c.session = none → I n p s (cs ++ [c]) → I n p s cs
  /-- The engine in the slot is ended. -/
  sever : ∀ {n slot s cs}, I n slot s cs → I n slot (s.sever slot) cs
  /-- The slot is emptied. -/
  clear : ∀ {n slot s cs}, I n slot s cs → I n none s cs

section

variable {d : Descriptor} {I : Nat → Option ProcessId → Scene → List (Context PipeSession) → Prop}
  (hI : Kept d I) {n : Nat} {slot : Option ProcessId} {s : Scene} {cs : List (Context PipeSession)}

include hI

variable {c : Context PipeSession}

theorem Kept.actLast (op : ContextOp) (h : I n slot s (cs ++ [c])) :
    I n slot (op.run (c, s)).2.2 (cs ++ [(op.run (c, s)).2.1]) :=
  hI.act op h

theorem Kept.body (body : Body) (h : I n slot s (cs ++ [c])) :
    I n slot (body.run (c, s)).2.2 (cs ++ [(body.run (c, s)).2.1]) := by
  induction body generalizing c s with
  | done result => exact h
  | act op next ih => exact ih _ (hI.actLast op h)

theorem Kept.release (h : I n slot s (cs ++ [c])) : I n slot (c.release s).2 cs := by
  have hclose := hI.actLast .close h
  rw [ContextOp.run_close] at hclose
  exact hI.leave rfl hclose

theorem Kept.compile (preamble : String) (h : I n slot s cs) :
    I (n + 1) (Scene.compile d preamble (slot, s)).2.1 (Scene.compile d preamble (slot, s)).2.2
      (cs ++ (Scene.compile d preamble (slot, s)).1.toOption.toList) := by
  have henter := hI.enter preamble h
  obtain ⟨⟨result, s'⟩, hr⟩ : ∃ r, (Scene.newcomer d slot s).evaluateString preamble
    (s.takeId.2.attach d.isShared slot).2.2 = r := ⟨_, rfl⟩
  rw [hr] at henter
  cases result with
  | ok v =>
    rw [Scene.compile_of_ok hr]
    exact henter
  | error e =>
    rw [Scene.compile_of_error hr]
    show I _ _ _ (cs ++ [])
    rw [List.append_nil]
    exact hI.release henter

theorem Kept.withContext {α : Type} (preamble : String)
    {body : Attempt (Context PipeSession × Scene) α}
    (hbody : ∀ {slot s} {c : Context PipeSession}, I (n + 1) slot s (cs ++ [c]) →
      I (n + 1) slot (body (c, s)).2.2 (cs ++ [(body (c, s)).2.1]))
    (h : I n slot s cs) :
    I (n + 1) (Scene.withContext d preamble body (slot, s)).2.1
      (Scene.withContext d preamble body (slot, s)).2.2 cs := by
  have hcompile := hI.compile preamble h
  obtain ⟨⟨result, slot', s'⟩, hr⟩ : ∃ r, Scene.compile d preamble (slot, s) = r := ⟨_, rfl⟩
  rw [hr] at hcompile
  cases result with
  | error e =>
    rw [Scene.withContext, Attempt.bind_apply_of_error hr]
    rwa [show (Except.error e : Except Error (Context PipeSession)).toOption = none from rfl,
      Option.toList_none, List.append_nil] at hcompile
  | ok c =>
    rw [Scene.withContext, Attempt.bind_apply_of_ok hr]
    have hfinish : (c.finish body s').2 = ((body (c, s')).2.1.release (body (c, s')).2.2).2 := by
      rw [Context.finish]
      dsimp only
      split <;> rfl
    show I _ slot' (c.finish body s').2 cs
    rw [hfinish]
    exact hI.release (hbody hcompile)

/-- **What each step keeps, one thing that is done keeps.** -/
theorem Kept.step {g : Seen} (op : Op) (h : I n g.runtime g.world g.contexts) :
    I (n + if op.takesKey then 1 else 0) (g.stepSeen d op).runtime (g.stepSeen d op).world
      (g.stepSeen d op).contexts := by
  cases op with
  | compile preamble => exact hI.compile preamble h
  | act k op =>
    show I n (g.act k op).runtime (g.act k op).world (g.act k op).contexts
    rw [Stage.act]
    cases hk : g.contexts[k]? with
    | none => exact h
    | some c =>
      obtain ⟨hlt, rfl⟩ := List.getElem?_eq_some_iff.1 hk
      have hsplit : g.contexts = g.contexts.take k ++ g.contexts[k] :: g.contexts.drop (k + 1) := by
        rw [List.getElem_cons_drop, List.take_append_drop]
      rw [hsplit] at h
      have hact := hI.act op h
      dsimp only
      rw [List.set_eq_take_cons_drop _ hlt]
      exact hact
  | exec source => exact hI.withContext "" (fun hc => hI.actLast _ hc) h
  | eval source => exact hI.withContext "" (fun hc => hI.actLast _ hc) h
  | withContext preamble body =>
    exact hI.withContext preamble (fun hc => hI.body body hc) h
  | reset => exact hI.sever h
  | shutdown => exact hI.clear (hI.sever h)

/-- **What each step keeps, a run keeps.** -/
theorem Kept.run {g : Seen} (h : I n g.runtime g.world g.contexts) (ops : List Op) :
    I (n + taken ops) (ops.foldl (fun g op => g.stepSeen d op) g).runtime
      (ops.foldl (fun g op => g.stepSeen d op) g).world
      (ops.foldl (fun g op => g.stepSeen d op) g).contexts := by
  induction ops generalizing n g with
  | nil => exact h
  | cons op ops ih =>
    have htaken : n + taken (op :: ops) = (n + if op.takesKey then 1 else 0) + taken ops := by
      rw [taken, taken, List.countP_cons]
      omega
    rw [htaken]
    exact ih (hI.step op h)

theorem Kept.seen {first : ContextId} (h : I 0 none { runtime := d.name, nextContext := first } [])
    (ops : List Op) :
    I (taken ops) (seen d first ops).runtime (seen d first ops).world (seen d first ops).contexts := by
  have hrun := hI.run (g := ⟨none, { runtime := d.name, nextContext := first }, []⟩) h ops
  rwa [Nat.zero_add] at hrun

end

end Stage

/-- A toy engine that serves all contexts and takes lines of ten characters. -/
def sharedToy : Descriptor := { name := "toy", isShared := true, maxFrameSize := some Slices.safeSize }

theorem isSafe_sharedToy : sharedToy.framing.IsSafe := Nat.le_max_left _ _

end EnginePipe.Bridge
