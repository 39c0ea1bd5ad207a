import EnginePipe.Context.PipeSession
import EnginePipe.Proofs.Channel.Engines
import EnginePipe.Proofs.Context.Operations
import Mathlib.Data.List.Basic

/-!
# Scenes

What is seen of a world of toy engines, without channels: each engine by its view, in the order of their
start, and the key of the next context.  A session on a scene has the engine itself evaluate, and this is
all that a session on the world does.

* `Scene`: what is seen; contexts can be used on it as on the world.
* `World.Shows`: a scene is what is seen of a world.
* `World.sessionsAlike`: **sessions go alike in a world and on its scene**.
* `run_snd_of_open`: **an operation on an open context changes its engine and nothing else**.
-/

namespace EnginePipe

open Channel (EngineProcess EngineView SoundProcess viewOf)
open Json (Value)
open Launch (Handle Pool ProcessId Station World)

/-- What is seen of a world of toy engines. -/
structure Scene where
  /-- The name of the runtime that the engines serve. -/
  runtime : String
  views : List EngineView := []
  nextContext : ContextId := 1

namespace Scene

/-- Changes what is seen of an engine. -/
def change (s : Scene) (id : ProcessId) (f : EngineView → EngineView) : Scene :=
  { s with views := s.views.modify id f }

/-- Whether an engine can take requests. -/
def isAlive (s : Scene) (id : ProcessId) : Bool := s.views[id]?.any (·.isAlive)

theorem change_of_none {s : Scene} {id : ProcessId} (h : s.views[id]? = none) (f : EngineView → EngineView) :
    s.change id f = s := by
  rw [change, List.modify_eq_self (List.getElem?_eq_none_iff.1 h)]

theorem change_eq_set {s : Scene} {id : ProcessId} {v : EngineView} (h : s.views[id]? = some v)
    (f : EngineView → EngineView) : s.change id f = { s with views := s.views.set id (f v) } := by
  obtain ⟨hlt, hget⟩ := List.getElem?_eq_some_iff.1 h
  rw [change, List.modify_eq_set_get f hlt, List.get_eq_getElem, hget]

theorem change_eq_self {s : Scene} {id : ProcessId} {v : EngineView} (h : s.views[id]? = some v)
    {f : EngineView → EngineView} (hf : f v = v) : s.change id f = s := by
  obtain ⟨hlt, rfl⟩ := List.getElem?_eq_some_iff.1 h
  rw [change_eq_set h, hf, List.set_getElem_self hlt]

end Scene

/-- What an engine is after it has released a context. -/
def Channel.EngineView.release (handle : Handle) (context : ContextId) (v : EngineView) : EngineView :=
  match handle with
  | .shared _ => if v.isAlive then v.teardown context else v
  | .owned _ => v.ended

namespace PipeSession

theorem close_of_alive [Build] {ω : Type} {session : PipeSession} {id : ProcessId} {w : World ω Station}
    (hh : session.handle = .shared id) (ha : w.pool.isAlive id) :
    session.close w = onProcess id (EngineProcess.teardown session.id) w := by
  simp [close, hh, ha]

/-- Has the engine evaluate a source text. -/
def evaluateOn [Build] (session : PipeSession) (source : String) : Attempt Scene Value := fun s =>
  match s.views[session.handle.process]? with
  | none => (.error Pool.noProcess, s)
  | some v =>
    ((v.evaluate s.runtime session.marker session.id source).1,
      s.change session.handle.process fun v =>
        (v.evaluate s.runtime session.marker session.id source).2)

/-- Has the engine release the context. -/
def closeOn (session : PipeSession) : Attempt Scene Unit := fun s =>
  (.ok (), s.change session.handle.process (EngineView.release session.handle session.id))

instance [Build] : Session PipeSession Scene where
  id := id
  evaluate := evaluateOn
  close := closeOn

end PipeSession

/-! ### Worlds and their scenes -/

namespace Launch.World

variable [Build] {ω : Type}

/-- What is seen of all engines. -/
def views (w : World ω Station) : List EngineView := w.pool.processes.map viewOf

/-- A scene is what is seen of a world of toy engines. -/
structure Shows (d : Descriptor) (w : World ω Station) (s : Scene) : Prop where
  sound : ∀ p ∈ w.pool.processes, SoundProcess d p
  runtime : s.runtime = d.name
  views : w.views = s.views
  nextContext : w.nextContext = s.nextContext

variable {d : Descriptor} {w : World ω Station} {s : Scene}

theorem views_get? (w : World ω Station) (id : ProcessId) :
    w.views[id]? = (w.pool.get? id).map viewOf := by
  rw [views, List.getElem?_map]
  rfl

theorem isAlive_eq (w : World ω Station) (id : ProcessId) :
    w.pool.isAlive id = w.views[id]?.any (·.isAlive) := by
  rw [views_get?, Pool.isAlive]
  cases w.pool.get? id <;> rfl

namespace Shows

variable (h : w.Shows d s)

include h

theorem isAlive (id : ProcessId) : w.pool.isAlive id = s.isAlive id := by
  rw [isAlive_eq, h.views]
  rfl

theorem get {id : ProcessId} {p : EngineProcess Station} (hp : w.pool.get? id = some p) :
    SoundProcess d p ∧ s.views[id]? = some (viewOf p) := by
  refine ⟨h.sound p (List.mem_of_getElem? hp), ?_⟩
  rw [← h.views, views_get?, hp]
  rfl

theorem get_none {id : ProcessId} (hp : w.pool.get? id = none) : s.views[id]? = none := by
  rw [← h.views, views_get?, hp]
  rfl

/-- A process is exchanged for one that is seen as the engine after a change. -/
theorem set {id : ProcessId} {p p' : EngineProcess Station} (hp : w.pool.get? id = some p)
    {f : EngineView → EngineView} (hp' : SoundProcess d p') (hf : viewOf p' = f (viewOf p))
    (journal : List (ProcessId × Channel.Heard)) :
    Shows d { w with pool := ⟨w.pool.processes.set id p', journal⟩ } (s.change id f) where
  sound := by
    intro q hq
    rcases List.mem_or_eq_of_mem_set hq with hq | rfl
    · exact h.sound q hq
    · exact hp'
  runtime := h.runtime
  views := by
    rw [Scene.change_eq_set (h.get hp).2, ← hf, ← h.views, World.views, World.views, List.map_set]
  nextContext := h.nextContext

theorem update {id : ProcessId} {g : EngineProcess Station → EngineProcess Station}
    {f : EngineView → EngineView}
    (hg : ∀ p, SoundProcess d p → SoundProcess d (g p) ∧ viewOf (g p) = f (viewOf p)) :
    Shows d { w with pool := w.pool.update id g } (s.change id f) := by
  cases hp : w.pool.get? id with
  | some p =>
    obtain ⟨hsound, hview⟩ := hg p (h.get hp).1
    obtain ⟨hlt, hget⟩ := List.getElem?_eq_some_iff.1 hp
    have hset : w.pool.update id g = ⟨w.pool.processes.set id (g p), w.pool.journal⟩ := by
      rw [Pool.update, List.modify_eq_set_get g hlt, List.get_eq_getElem, hget]
    rw [hset]
    exact h.set hp hsound hview _
  | none =>
    have hw : w.pool.update id g = w.pool := by
      rw [Pool.update, List.modify_eq_self (List.getElem?_eq_none_iff.1 hp)]
    have hs : s.change id f = s := Scene.change_of_none (h.get_none hp) f
    rw [hw, hs]
    exact h

end Shows

/-! ### Sessions -/

theorem evaluate_alike (hd : d.framing.IsSafe) (session : PipeSession) (source : String) :
    Attempt.Alike (Shows (ω := ω) d) (session.evaluate source) (session.evaluateOn source) := by
  intro w s h
  rw [PipeSession.evaluate, PipeSession.onProcess, Attempt.within, PipeSession.evaluateOn]
  cases hp : w.pool.get? session.handle.process with
  | none =>
    have hact : Pool.act session.handle.process
        (EngineProcess.evaluate (.escaped session.id source) session.marker) w.pool =
          (.error Pool.noProcess, w.pool) := by
      rw [Pool.act, hp]
    rw [hact, h.get_none hp]
    exact ⟨rfl, h⟩
  | some p =>
    obtain ⟨hsound, hview⟩ := h.get hp
    obtain ⟨p', heval, hsound', hview'⟩ :=
      Channel.evaluate_eq hd hsound session.id source session.marker
    rw [Pool.act_of_get hp, heval, hview, h.runtime]
    exact ⟨rfl, h.set hp hsound' hview' _⟩

theorem close_alike (hd : d.framing.IsSafe) (session : PipeSession) :
    Attempt.Alike (Shows (ω := ω) d) session.close session.closeOn := by
  intro w s h
  cases hh : session.handle with
  | owned id =>
    rw [PipeSession.close, PipeSession.closeOn, hh]
    exact ⟨rfl, h.update fun p hp => Channel.close_eq hp⟩
  | shared id =>
    have hon : session.closeOn s = (.ok (), s.change id (EngineView.release (.shared id) session.id)) := by
      rw [PipeSession.closeOn, hh]
      rfl
    rw [hon]
    cases hp : w.pool.get? id with
    | none =>
      have ha : w.pool.isAlive id = false := by
        rw [Pool.isAlive, hp]
        rfl
      rw [PipeSession.close_of_dead hh ha, Scene.change_of_none (h.get_none hp)]
      exact ⟨rfl, h⟩
    | some p =>
      obtain ⟨hsound, hview⟩ := h.get hp
      have halive : w.pool.isAlive id = p.isAlive := by
        rw [Pool.isAlive, hp]
        rfl
      by_cases ha : p.isAlive
      · obtain ⟨p', htear, hsound', hview'⟩ := Channel.teardown_eq hd hsound session.id ha
        have hrelease : EngineView.release (.shared id) session.id (viewOf p) =
            (viewOf p).teardown session.id := if_pos ha
        rw [PipeSession.close_of_alive hh (halive.trans ha), PipeSession.onProcess, Attempt.within,
          Pool.act_of_get hp, htear]
        exact ⟨rfl, h.set hp hsound' (hview'.trans hrelease.symm) _⟩
      · have hrelease : EngineView.release (.shared id) session.id (viewOf p) = viewOf p := if_neg ha
        rw [Bool.not_eq_true] at ha
        rw [PipeSession.close_of_dead hh (halive.trans ha), Scene.change_eq_self hview hrelease]
        exact ⟨rfl, h⟩

/-- **Sessions go alike in a world and on its scene.** -/
theorem sessionsAlike (hd : d.framing.IsSafe) : SessionsAlike PipeSession (Shows (ω := ω) d) where
  id _ := rfl
  evaluate := evaluate_alike hd
  close := close_alike hd

end Launch.World

/-! ### Operations on scenes -/

namespace Channel.EngineView

/-- What an operation on an open context makes of its engine. -/
def operate [Build] (runtime : String) (session : PipeSession) (op : ContextOp) (v : EngineView) : EngineView :=
  if op.isClose then v.release session.handle session.id
  else
    match op.text? with
    | none => v
    | some text => (v.evaluate runtime session.marker session.id text).2

end Channel.EngineView

namespace Scene

theorem change_id (s : Scene) (id : ProcessId) : s.change id (fun v => v) = s := by
  cases hv : s.views[id]? with
  | none => exact change_of_none hv _
  | some v => exact change_eq_self hv rfl

variable [Build]

theorem evaluateString_snd {c : Context PipeSession} {session : PipeSession} (hc : c.session = some session)
    (source : String) (s : Scene) :
    (c.evaluateString source s).2 = s.change session.handle.process fun v =>
      (v.evaluate s.runtime session.marker session.id source).2 := by
  rw [Context.evaluateString, hc]
  show (session.evaluateOn source s).2 = _
  rw [PipeSession.evaluateOn]
  cases hv : s.views[session.handle.process]? with
  | none => exact (change_of_none hv _).symm
  | some v => rfl

theorem evaluateString_fst {c : Context PipeSession} {session : PipeSession} (hc : c.session = some session)
    (source : String) {s : Scene} {v : EngineView} (hv : s.views[session.handle.process]? = some v) :
    (c.evaluateString source s).1 = (v.evaluate s.runtime session.marker session.id source).1 := by
  rw [Context.evaluateString, hc]
  show (session.evaluateOn source s).1 = _
  rw [PipeSession.evaluateOn, hv]

theorem release_of_session {c : Context PipeSession} {session : PipeSession} (hc : c.session = some session)
    (s : Scene) :
    c.release s = (.ok (), s.change session.handle.process (EngineView.release session.handle session.id)) := by
  rw [Context.release, hc]
  rfl

/-- **An operation on an open context changes its engine and nothing else.** -/
theorem run_snd_of_open {c : Context PipeSession} {session : PipeSession} (hc : c.session = some session)
    (op : ContextOp) (s : Scene) :
    (op.run (c, s)).2 =
      (op.left c, s.change session.handle.process (EngineView.operate s.runtime session op)) := by
  by_cases hop : op.isClose
  · cases op with
    | close =>
      rw [ContextOp.run_close, release_of_session hc]
      rfl
    | _ => cases hop
  · rw [Bool.not_eq_true] at hop
    have hleft : op.left c = c := by
      rw [ContextOp.left, hop]
      rfl
    rw [ContextOp.run_eq c hop, hleft]
    cases ht : op.text? with
    | none =>
      have hoperate : EngineView.operate s.runtime session op = fun v => v := by
        funext v
        rw [EngineView.operate, hop, ht]
        rfl
      rw [hoperate, change_id]
    | some text =>
      have hoperate : EngineView.operate s.runtime session op =
          fun v => (v.evaluate s.runtime session.marker session.id text).2 := by
        funext v
        rw [EngineView.operate, hop, ht]
        rfl
      rw [hoperate, ← evaluateString_snd hc]

end Scene

end EnginePipe
