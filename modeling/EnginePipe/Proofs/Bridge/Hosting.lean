import EnginePipe.Bridge.Runtime
import EnginePipe.Proofs.Context.Scenes

/-!
# Hosting toy engines

A runtime over toy engines is seen as a scene and the slot of its manager.  Starting an engine never
fails: a living engine in the slot is handed out, and otherwise a fresh one is started.  All that a
runtime does to its world is done alike on the scene.

* `Scene.attach`, `Scene.compile`, `Scene.withContext`, `Scene.sever`: what a runtime does, on scenes.
* `External.start_hosts`: an engine for a new context.
* `Runtime.compile_alike`, `Runtime.withContext_alike`, `Runtime.reset_hosts`, `Runtime.shutdown_hosts`:
  **a runtime and its scene go alike**.
-/

namespace EnginePipe

open Channel (EngineView SoundProcess viewOf)
open Json (Value)
open Launch (Handle Manager Pool ProcessId Station World toyLauncher)

/-! ### On scenes -/

namespace Scene

/-- Takes the key for a new context. -/
def takeId (s : Scene) : ContextId × Scene := (s.nextContext, { s with nextContext := s.nextContext + 1 })

/-- Starts an engine. -/
def launch (s : Scene) : ProcessId × Scene := (s.views.length, { s with views := s.views ++ [.fresh] })

/-- An engine for a new context: where one serves all, the one in the slot while it is alive. -/
def attach (isShared : Bool) (slot : Option ProcessId) (s : Scene) : Handle × Option ProcessId × Scene :=
  if isShared then
    match slot.filter s.isAlive with
    | some id => (.shared id, slot, s)
    | none => (.shared s.launch.1, some s.launch.1, s.launch.2)
  else (.owned s.launch.1, slot, s.launch.2)

/-- Opens a context and evaluates a preamble in it. -/
def compile [Build] (d : Descriptor) (preamble : String) :
    Attempt (Option ProcessId × Scene) (Context PipeSession) := fun (slot, s) =>
  let (id, s) := s.takeId
  let (handle, slot, s) := s.attach d.isShared slot
  let (result, s) := Context.start d.name (⟨id, d.syntaxMarker, handle⟩ : PipeSession) preamble s
  (result, slot, s)

/-- Does something in a new context, which is closed afterwards. -/
def withContext [Build] {α : Type} (d : Descriptor) (preamble : String)
    (body : Attempt (Context PipeSession × Scene) α) : Attempt (Option ProcessId × Scene) α := do
  let c ← compile d preamble
  Attempt.within Prod.snd (fun s (slot, _) => (slot, s)) (c.finish body)

/-- The context that is opened next. -/
def newcomer (d : Descriptor) (slot : Option ProcessId) (s : Scene) : Context PipeSession where
  id := s.nextContext
  runtime := d.name
  session := some ⟨s.nextContext, d.syntaxMarker, (s.takeId.2.attach d.isShared slot).1⟩

theorem session_newcomer (d : Descriptor) (slot : Option ProcessId) (s : Scene) :
    (newcomer d slot s).session =
      some ⟨s.nextContext, d.syntaxMarker, (s.takeId.2.attach d.isShared slot).1⟩ := rfl

/-- Ends the engine in the slot, if there is one. -/
def sever (slot : Option ProcessId) (s : Scene) : Scene :=
  match slot with
  | none => s
  | some id => s.change id EngineView.ended

theorem compile_of_ok [Build] {d : Descriptor} {preamble : String} {slot : Option ProcessId} {s s' : Scene}
    {v : Value} (h : (newcomer d slot s).evaluateString preamble (s.takeId.2.attach d.isShared slot).2.2 =
      (.ok v, s')) :
    compile d preamble (slot, s) =
      (.ok (newcomer d slot s), (s.takeId.2.attach d.isShared slot).2.1, s') := by
  rw [compile]
  exact congrArg (fun r => (r.1, _, r.2)) (Context.start_of_ok h)

theorem compile_of_error [Build] {d : Descriptor} {preamble : String} {slot : Option ProcessId} {s s' : Scene}
    {e : Error} (h : (newcomer d slot s).evaluateString preamble (s.takeId.2.attach d.isShared slot).2.2 =
      (.error e, s')) :
    compile d preamble (slot, s) =
      (.error e, (s.takeId.2.attach d.isShared slot).2.1, ((newcomer d slot s).release s').2) := by
  rw [compile]
  exact congrArg (fun r => (r.1, _, r.2)) (Context.start_of_error h)

end Scene

/-! ### Worlds with one more engine -/

namespace Launch.World

variable {ω : Type} {d : Descriptor} {w : World ω Station} {s : Scene}

theorem soundProcess_fresh (d : Descriptor) : SoundProcess d (processOn d (.toy .fresh)) := by
  have hempty : Channel.SoundTable [] := fun _ h => absurd h List.not_mem_nil
  exact Channel.soundProcess_idle hempty []

theorem Shows.launch [Build] (h : w.Shows d s) :
    (w.pool.start (processOn d (.toy .fresh))).1 = s.launch.1 ∧
      Shows d { w with pool := (w.pool.start (processOn d (.toy .fresh))).2 } s.launch.2 := by
  have hlen : w.pool.processes.length = s.views.length := by
    rw [← h.views, World.views, List.length_map]
  refine ⟨hlen, ?_, h.runtime, ?_, h.nextContext⟩
  · intro p hp
    rcases List.mem_append.1 hp with hp | hp
    · exact h.sound p hp
    · rw [List.mem_singleton.1 hp]
      exact soundProcess_fresh d
  · show (w.pool.processes ++ [processOn d (.toy .fresh)]).map viewOf = s.views ++ [.fresh]
    rw [List.map_append, ← h.views]
    rfl

theorem Shows.takeId [Build] (h : w.Shows d s) : w.takeId.1 = s.takeId.1 ∧ Shows d w.takeId.2 s.takeId.2 :=
  ⟨h.nextContext, h.sound, h.runtime, h.views, congrArg (· + 1) h.nextContext⟩

end Launch.World

/-! ### Runtimes and their scenes -/

namespace Bridge.External

variable [Build] {ω : Type} {d : Descriptor}

/-- A runtime over toy engines is seen as its slot and a scene. -/
structure Hosts (d : Descriptor) (a : External ω Station × World ω Station)
    (b : Option ProcessId × Scene) : Prop where
  descriptor : a.1.descriptor = d
  manager : ∃ m, a.1.probe = .found toyLauncher m ∧ m.descriptor = d ∧ m.failure = none ∧ m.slot = b.1
  world : a.2.Shows d b.2

variable {a : External ω Station × World ω Station} {b : Option ProcessId × Scene}

/-- The world may change beside the runtime. -/
theorem Hosts.beside {x : External ω Station} {w w' : World ω Station} {slot : Option ProcessId}
    {s s' : Scene} (h : Hosts d (x, w) (slot, s)) (hw : w'.Shows d s') : Hosts d (x, w') (slot, s') :=
  ⟨h.descriptor, h.manager, hw⟩

theorem launch_hosts {m : Manager} {w : World ω Station} {s : Scene} (hm : m.descriptor = d)
    (hf : m.failure = none) (hw : w.Shows d s) :
    ∃ m' w', Manager.launch toyLauncher (m, w) = (.ok s.launch.1, m', w') ∧ m'.descriptor = d ∧
      m'.failure = none ∧ m'.slot = m.slot ∧ w'.Shows d s.launch.2 := by
  obtain ⟨hid, hshows⟩ := hw.launch
  refine ⟨{ m with launches := m.launches + 1, started := m.started ++ [s.launch.1] },
    { w with pool := (w.pool.start (Launch.processOn d (.toy .fresh))).2 }, ?_, hm, hf, rfl, hshows⟩
  rw [← hid, ← hm, Manager.launch, hf]
  rfl

theorem attach_hosts {m : Manager} {w : World ω Station} {s : Scene} (hm : m.descriptor = d)
    (hf : m.failure = none) (hw : w.Shows d s) :
    ∃ m' w', Manager.start toyLauncher (m, w) = (.ok (s.attach d.isShared m.slot).1, m', w') ∧
      m'.descriptor = d ∧ m'.failure = none ∧ m'.slot = (s.attach d.isShared m.slot).2.1 ∧
      w'.Shows d (s.attach d.isShared m.slot).2.2 := by
  obtain ⟨m', w', hlaunch, hm', hf', hslot, hw'⟩ := launch_hosts hm hf hw
  have hget : Attempt.get (m, w) = (.ok (m, w), m, w) := rfl
  rw [Manager.start, Attempt.bind_apply_of_ok hget, Scene.attach]
  by_cases hs : d.isShared
  · have hcurrent : m.current? w = m.slot.filter s.isAlive :=
      congrArg m.slot.filter (funext hw.isAlive)
    simp only [hm, hs, if_true]
    cases hc : m.slot.filter s.isAlive with
    | some id =>
      have hattach : Manager.attach toyLauncher (m, w) = (.ok id, m, w) := by
        rw [Manager.attach, hcurrent, hc]
      exact ⟨m, w, Attempt.bind_apply_of_ok hattach _, hm, hf, rfl, hw⟩
    | none =>
      have hreplace : Manager.replace toyLauncher (m, w) =
          (.ok s.launch.1, { m' with slot := some s.launch.1 }, w') := by
        rw [Manager.replace, Attempt.bind_apply_of_ok hlaunch]
        rfl
      have hattach : Manager.attach toyLauncher (m, w) =
          (.ok s.launch.1, { m' with slot := some s.launch.1 }, w') := by
        rw [Manager.attach, hcurrent, hc]
        exact hreplace
      exact ⟨_, w', Attempt.bind_apply_of_ok hattach _, hm', hf', rfl, hw'⟩
  · simp only [hm, hs, Bool.false_eq_true, if_false]
    exact ⟨m', w', Attempt.bind_apply_of_ok hlaunch _, hm', hf', hslot, hw'⟩

/-- **An engine for a new context is always found.** -/
theorem start_hosts (h : Hosts d a b) :
    ∃ a', start a = (.ok (b.2.attach d.isShared b.1).1, a') ∧
      Hosts d a' (b.2.attach d.isShared b.1).2 := by
  obtain ⟨x, w⟩ := a
  obtain ⟨slot, s⟩ := b
  obtain ⟨hd, ⟨m, hp, hm, hf, hslot⟩, hw⟩ := h
  dsimp only at hd hp hslot hw ⊢
  subst hslot
  obtain ⟨m', w', hstart, hm', hf', hslot', hw'⟩ := attach_hosts hm hf hw
  refine ⟨({ x with probe := .found toyLauncher m' }, w'), ?_, hd, ⟨m', rfl, hm', hf', hslot'⟩, hw'⟩
  rw [start]
  simp only [hp, hstart]

theorem openContext_alike (hs : d.framing.IsSafe) (preamble : String) :
    Attempt.Alike (Hosts (ω := ω) d) (openContext preamble) (Scene.compile d preamble) := by
  rintro ⟨x, w⟩ ⟨slot, s⟩ h
  obtain ⟨hid, htake⟩ := h.world.takeId
  obtain ⟨⟨x', w'⟩, hstart, hhosts⟩ :=
    start_hosts (a := (x, w.takeId.2)) (b := (slot, s.takeId.2)) ⟨h.descriptor, h.manager, htake⟩
  have hd : x'.descriptor = d := hhosts.descriptor
  obtain ⟨hr, hw⟩ := Context.start_alike (World.sessionsAlike hs) d.name
    (⟨s.takeId.1, d.syntaxMarker, (s.takeId.2.attach d.isShared slot).1⟩ : PipeSession) preamble
    w' (s.takeId.2.attach d.isShared slot).2.2 hhosts.world
  have hopen : openContext preamble (x, w) =
      ((Context.start x'.descriptor.name (⟨w.takeId.1, x'.descriptor.syntaxMarker,
        (s.takeId.2.attach d.isShared slot).1⟩ : PipeSession) preamble w').1, x',
       (Context.start x'.descriptor.name (⟨w.takeId.1, x'.descriptor.syntaxMarker,
        (s.takeId.2.attach d.isShared slot).1⟩ : PipeSession) preamble w').2) := by
    rw [openContext]
    dsimp only at hstart ⊢
    rw [hstart]
  rw [hopen, hd, hid]
  exact ⟨hr, hd, hhosts.manager, hw⟩

theorem compile_alike (hs : d.framing.IsSafe) (preamble : String) :
    Attempt.Alike (Hosts (ω := ω) d) (compile preamble) (Scene.compile d preamble) := by
  rintro ⟨x, w⟩ b h
  obtain ⟨m, hp, -⟩ := h.manager
  have hcompile : compile preamble (x, w) = openContext preamble (x, w) := by
    have hprobed : x.probed w = (x, w) :=
      probed_of_not_pending (fun hpending => by rw [hp] at hpending; cases hpending) w
    rw [compile, hprobed]
    dsimp only at hp ⊢
    rw [hp]
  rw [hcompile]
  exact openContext_alike hs preamble (x, w) b h

end Bridge.External

namespace Bridge.Runtime

variable [Build] {ω α : Type} {d : Descriptor}

/-- A runtime over toy engines is seen as its slot and a scene. -/
inductive Hosts (d : Descriptor) : Runtime ω Station × World ω Station → Option ProcessId × Scene → Prop
  | external {x : External ω Station} {w : World ω Station} {b : Option ProcessId × Scene}
      (h : External.Hosts d (x, w) b) : Hosts d (.external x, w) b

theorem Hosts.world {r : Runtime ω Station} {w : World ω Station} {b : Option ProcessId × Scene}
    (h : Hosts d (r, w) b) : w.Shows d b.2 := by
  cases h with
  | external h => exact h.world

theorem Hosts.beside {r : Runtime ω Station} {w w' : World ω Station} {slot : Option ProcessId}
    {s s' : Scene} (h : Hosts d (r, w) (slot, s)) (hw : w'.Shows d s') : Hosts d (r, w') (slot, s') := by
  cases h with
  | external h => exact .external (h.beside hw)

theorem compile_alike (hs : d.framing.IsSafe) (preamble : String) :
    Attempt.Alike (Hosts (ω := ω) d) (compile preamble) (Scene.compile d preamble) := by
  rintro ⟨r, w⟩ b h
  cases h with
  | @external x _ _ h =>
    obtain ⟨hr, hhosts⟩ := External.compile_alike hs preamble (x, w) b h
    exact ⟨hr, .external hhosts⟩

theorem within_alike {x : Attempt (World ω Station) α} {y : Attempt Scene α}
    (h : Attempt.Alike (World.Shows d) x y) :
    Attempt.Alike (Hosts d) (Attempt.within Prod.snd (fun w (r, _) => (r, w)) x)
      (Attempt.within Prod.snd (fun s (slot, _) => (slot, s)) y) := by
  rintro ⟨r, w⟩ ⟨slot, s⟩ hhosts
  obtain ⟨hr, hw⟩ := h w s hhosts.world
  exact ⟨hr, hhosts.beside hw⟩

theorem withContext_alike (hs : d.framing.IsSafe) (preamble : String)
    {x : Attempt (Context PipeSession × World ω Station) α} {y : Attempt (Context PipeSession × Scene) α}
    (h : Attempt.Alike (Beside (World.Shows d)) x y) :
    Attempt.Alike (Hosts d) (withContext preamble x) (Scene.withContext d preamble y) :=
  (compile_alike hs preamble).bind fun _ =>
    within_alike (Context.finish_alike (World.sessionsAlike hs) h)

theorem reset_hosts {r : Runtime ω Station} {w : World ω Station} {slot : Option ProcessId} {s : Scene}
    (h : Hosts d (r, w) (slot, s)) : Hosts d (r, r.reset w) (slot, s.sever slot) := by
  refine h.beside ?_
  cases h with
  | @external x _ _ h =>
    obtain ⟨-, ⟨m, hp, -, -, hslot⟩, hw⟩ := h
    have hslot' : m.slot = slot := hslot
    subst hslot'
    have hreset : Runtime.reset (.external x) w = Manager.finishReset m.slot w := by
      rw [reset, External.reset, hp]
      rfl
    rw [hreset]
    cases m.slot with
    | none => exact hw
    | some id => exact World.Shows.update hw fun p hp => Channel.sever_eq hp

theorem shutdown_hosts {r : Runtime ω Station} {w : World ω Station} {slot : Option ProcessId} {s : Scene}
    (h : Hosts d (r, w) (slot, s)) : Hosts d (r.shutdown w) (none, s.sever slot) := by
  cases h with
  | @external x _ _ h =>
    obtain ⟨hd, ⟨m, hp, hm, hf, hslot⟩, hw⟩ := h
    have hslot' : m.slot = slot := hslot
    subst hslot'
    have hshutdown : Runtime.shutdown (.external x) w =
        (.external { x with probe := .found toyLauncher { m with slot := none } },
          Manager.finishShutdown m.slot (fun _ => false) w) := by
      have hp' : x.probe = .found toyLauncher m := hp
      rw [shutdown, External.shutdown, hp']
      rfl
    rw [hshutdown]
    refine .external ⟨hd, ⟨_, rfl, hm, hf, rfl⟩, ?_⟩
    cases m.slot with
    | none => exact hw
    | some id => exact World.Shows.update hw fun p hp => Channel.close_eq hp

/-- A runtime over toy engines that has not started any. -/
theorem hosts_ofLauncher (d : Descriptor) (host : ω) (first : ContextId) :
    Hosts d (.external (.ofLauncher d toyLauncher), { host, nextContext := first })
      (none, { runtime := d.name, nextContext := first }) :=
  .external ⟨rfl, ⟨_, rfl, rfl, rfl, rfl⟩, fun _ h => absurd h List.not_mem_nil, rfl, rfl, rfl⟩

end Bridge.Runtime

end EnginePipe
