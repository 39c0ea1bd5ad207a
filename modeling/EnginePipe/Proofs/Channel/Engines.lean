import EnginePipe.Launch.Launchers
import EnginePipe.Proofs.Engine.Scopes
import EnginePipe.Proofs.Engine.Serving
import EnginePipe.Proofs.Frame.Replies

/-!
# Engines as they are seen

What matters of a process with a toy engine: whether it is alive, which scopes the engine keeps, and
which requests it received.  Between two exchanges nothing is on its way (`SoundProcess`), so an exchange
is one step of this view: the engine's own evaluation, its outcome as the host reads it.

* `EngineView`: what is seen, and its steps.
* `evaluate_eq`: **evaluating through the whole channel is a step of the view**.
* `teardown_eq`: so is having a context forgotten.
-/

namespace EnginePipe.Channel

open Engine (Outcome Pipe Program Table Toy)
open Json (Value)
open Launch (Station)

/-! ### Views -/

/-- What is seen of an engine. -/
structure EngineView where
  isAlive : Bool
  table : Table
  received : List Request

/-- What an outcome is for the host: its value as it is read, its message as an error. -/
def hostResult (runtime marker : String) (context : ContextId) : Outcome → Except Error Value
  | .value v => .ok v.reread
  | .error message =>
    .error (if Response.marks marker message then .syntaxError message else .programError message)
  | .exit => .error (.desync (.noResponse runtime context))

namespace EngineView

/-- The scope of a context. -/
def scope (v : EngineView) (context : ContextId) : Engine.Scope := v.table.scope context

/-- What the engine makes of a source text in the scope of a context. -/
def outcome [Build] (v : EngineView) (context : ContextId) (source : String) : Outcome × Engine.Scope :=
  Engine.evaluate (Text.escape source).toList (v.scope context)

/-- The engine after a source text. -/
def afterEvaluate [Build] (v : EngineView) (context : ContextId) (source : String) : EngineView where
  isAlive := (v.outcome context source).1.response?.isSome
  table := v.table.keep context (v.outcome context source).2
  received := v.received ++ [.escaped context source]

/-- Evaluating a source text. -/
def evaluate [Build] (runtime marker : String) (context : ContextId) (source : String) (v : EngineView) :
    Except Error Value × EngineView :=
  if v.isAlive then
    (hostResult runtime marker context (v.outcome context source).1, v.afterEvaluate context source)
  else (.error (.desync (.notRunning runtime)), v)

/-- Having a context forgotten. -/
def teardown (context : ContextId) (v : EngineView) : EngineView where
  isAlive := v.isAlive
  table := v.table.forget context
  received := v.received ++ [.teardown context]

/-- Ending the engine. -/
def ended (v : EngineView) : EngineView := { v with isAlive := false }

/-- An engine that was just started. -/
def fresh : EngineView := ⟨true, [], []⟩

end EngineView

/-- The scopes that a program keeps. -/
def tableOf : Program → Table
  | .toy t => t.scopes
  | .rules _ => []

/-- What is seen of a process. -/
def viewOf [Build] (p : EngineProcess Station) : EngineView :=
  ⟨p.isAlive, tableOf p.transport.peer.program, Heard.requests p.heard⟩

/-! ### Sound processes -/

/-- The values in all scopes of a table are sound. -/
def SoundTable (table : Table) : Prop := ∀ entry ∈ table, Engine.SoundScope entry.2

theorem SoundTable.scope {table : Table} (h : SoundTable table) (context : ContextId) :
    Engine.SoundScope (table.scope context) := by
  have key : ∀ scope, table.lookup context = some scope → Engine.SoundScope scope := by
    intro scope hl
    induction table with
    | nil => cases hl
    | cons entry table ih =>
      rw [List.lookup_cons] at hl
      split at hl
      · cases hl
        exact h entry List.mem_cons_self
      · exact ih (fun e he => h e (List.mem_cons_of_mem _ he)) hl
  rw [Table.scope]
  cases hl : table.lookup context with
  | none => exact Engine.soundScope_nil
  | some scope => exact key scope hl

theorem SoundTable.forget {table : Table} (h : SoundTable table) (context : ContextId) :
    SoundTable (table.forget context) := fun entry hm => h entry (List.mem_filter.1 hm).1

theorem SoundTable.keep {table : Table} (h : SoundTable table) {scope : Engine.Scope}
    (hs : Engine.SoundScope scope) (context : ContextId) : SoundTable (table.keep context scope) := by
  intro entry hm
  rcases List.mem_cons.1 hm with rfl | hm
  · exact hs
  · exact h.forget context entry hm

/-- A process with a toy engine, with nothing on its way while it is alive. -/
structure SoundProcess (d : Descriptor) (p : EngineProcess Station) : Prop where
  runtime : p.runtime = d.name
  framing : p.transport.framing = d.framing
  toy : ∃ t, p.transport.peer.program = .toy t
  idle : p.usable → p.transport.isClosed = false ∧
    ∃ table heard, p.transport.peer = ⟨.toy ⟨table, .empty, heard⟩, [], [], false⟩ ∧ SoundTable table

theorem SoundProcess.isAlive_eq [Build] {d : Descriptor} {p : EngineProcess Station} (h : SoundProcess d p) :
    p.isAlive = p.usable := by
  obtain ⟨t, ht⟩ := h.toy
  have hexit : Peer.hasExited p.transport.peer = false := by
    show (Engine.LineProgram.isSupervised p.transport.peer.program && p.transport.peer.isGone) = false
    rw [ht]
    rfl
  rw [EngineProcess.isAlive, hexit, Bool.not_false, Bool.and_true]

/-- The process that an idle toy engine makes. -/
def idleProcess (d : Descriptor) (table : Table) (heard : List Heard) : EngineProcess Station :=
  ⟨d.name, ⟨⟨.toy ⟨table, .empty, heard⟩, [], [], false⟩, d.framing, false⟩, true⟩

theorem SoundProcess.eq_idle [Build] {d : Descriptor} {p : EngineProcess Station} (h : SoundProcess d p)
    (ha : p.isAlive) : ∃ table heard, p = idleProcess d table heard ∧ SoundTable table := by
  have hu : p.usable = true := h.isAlive_eq ▸ ha
  obtain ⟨hc, table, heard, hp, ht⟩ := h.idle hu
  refine ⟨table, heard, ?_, ht⟩
  obtain ⟨runtime, ⟨peer, framing, isClosed⟩, usable⟩ := p
  have hr : runtime = d.name := h.runtime
  have hf : framing = d.framing := h.framing
  dsimp only at hu hc hp
  rw [hr, hf, hu, hc, hp]
  rfl

theorem soundProcess_idle {d : Descriptor} {table : Table} (h : SoundTable table) (heard : List Heard) :
    SoundProcess d (idleProcess d table heard) :=
  ⟨rfl, rfl, ⟨_, rfl⟩, fun _ => ⟨rfl, table, heard, rfl, h⟩⟩

theorem viewOf_idle [Build] (d : Descriptor) (table : Table) (heard : List Heard) :
    viewOf (idleProcess d table heard) = ⟨true, table, Heard.requests heard⟩ := rfl

/-! ### One exchange -/

/-- The transport after a request. -/
def servedTransport (d : Descriptor) (table : Table) (heard : List Heard) (isGone : Bool) :
    Transport Station :=
  ⟨⟨.toy ⟨table, .empty, heard⟩, [], [], isGone⟩, d.framing, false⟩

/-- **A request goes through**: the engine serves it once, and the line that is read is its response. -/
theorem roundTrip_idle [Build] {d : Descriptor} (hd : d.framing.IsSafe) (table : Table) (heard : List Heard)
    {request : Request} (hr : request.IsPlain) :
    ∃ heard', Heard.requests heard' = Heard.requests heard ++ [request] ∧
      Transport.roundTrip request (servedTransport d table heard false) =
        (.ok ((table.serve request).1.map fun response => response.encode ++ "\n"),
          servedTransport d (table.serve request).2 heard' (table.serve request).1.isNone) := by
  obtain ⟨lines, hlines, hwire⟩ := Framing.exists_encode hr d.framing
  have hw := request.whole_encode
  have hunbroken := Framing.unbroken_of_mem_lines hw hlines
  have hrun := Framing.run_lines hw hlines (Framing.sentinel_not_mem_of_isSafe hw hlines hd)
  have hne : Text.bytes (Text.joinLines lines) ≠ [] := by
    cases lines with
    | nil => cases hrun
    | cons line lines =>
      rw [Text.joinLines_cons, Text.bytes_append]
      exact List.append_ne_nil_of_left_ne_nil (Text.bytes_line_ne_nil line) _
  obtain ⟨heard', hheard, hfold⟩ :=
    Pipe.hear_lines (t := ⟨table, .empty, heard⟩) hrun [] []
  refine ⟨heard', hheard, ?_⟩
  have hfeed : Pipe.feed (⟨.toy ⟨table, .empty, heard⟩, [], [], false⟩ : Pipe Program)
      (Text.bytes (Text.joinLines lines)) =
      ⟨.toy ⟨(table.serve request).2, .empty, heard'⟩, [],
        (table.serve request).1.toList.flatMap (fun response => Text.bytes (response.encode ++ "\n")),
        (table.serve request).1.isNone⟩ := by
    have hcut := Text.cutLines_bytes_joinLines fun line hm => (hunbroken line hm).not_newline_mem
    rw [Pipe.feed]
    simp only [List.nil_append, hcut, hfold]
  have hsend : Transport.send request (servedTransport d table heard false) =
      (.ok (), ⟨⟨.toy ⟨(table.serve request).2, .empty, heard'⟩, [],
        (table.serve request).1.toList.flatMap (fun response => Text.bytes (response.encode ++ "\n")),
        (table.serve request).1.isNone⟩, d.framing, false⟩) := by
    refine Transport.send_of_deliver hwire rfl ?_
    have hwrite : Sink.write (Text.bytes (Text.joinLines lines))
        (⟨.toy ⟨table, .empty, heard⟩, [], [], false⟩ : Station) =
        (.ok (Text.bytes (Text.joinLines lines)).length, _) :=
      congrArg (Prod.mk _) hfeed
    have hpeer : (servedTransport d table heard false).peer = ⟨.toy ⟨table, .empty, heard⟩, [], [], false⟩ :=
      rfl
    rw [deliver, hpeer, writeAll_of_taken hne hwrite]
    rfl
  rw [Transport.roundTrip, Attempt.bind_apply_of_ok hsend]
  generalize table.serve request = served
  obtain ⟨response, table'⟩ := served
  cases response with
  | none => rfl
  | some response =>
    have htake := Text.takeLine_bytes_line (Response.not_newline_mem_encode response)
    have hread : Peer.readLine (⟨.toy ⟨table', .empty, heard'⟩, [],
        Text.bytes (response.encode ++ "\n") ++ [], false⟩ : Pipe Program) =
        (Text.bytes (response.encode ++ "\n"), ⟨.toy ⟨table', .empty, heard'⟩, [], [], false⟩) := by
      show Pipe.readLine _ = _
      rw [List.append_nil, Pipe.readLine, htake]
    exact (Transport.receive_of_line rfl hread (Text.bytes_line_ne_nil _) (Text.ofBytes?_bytes _)).trans rfl

theorem exchange_idle [Build] {d : Descriptor} (hd : d.framing.IsSafe) (table : Table) (heard : List Heard)
    {request : Request} (hr : request.IsPlain) :
    ∃ heard', Heard.requests heard' = Heard.requests heard ++ [request] ∧
      EngineProcess.exchange request (idleProcess d table heard) =
        (.ok ((table.serve request).1.map fun response => response.encode ++ "\n"),
          ⟨d.name, servedTransport d (table.serve request).2 heard' (table.serve request).1.isNone, true⟩) := by
  obtain ⟨heard', hheard, hround⟩ := roundTrip_idle hd table heard hr
  refine ⟨heard', hheard, ?_⟩
  have ha : (idleProcess d table heard).isAlive = true := rfl
  have ht : (idleProcess d table heard).transport = servedTransport d table heard false := rfl
  rw [EngineProcess.exchange, if_pos ha, ht, hround]
  rfl

/-! ### Steps of a process -/

theorem soundProcess_of_dead {d : Descriptor} {p : EngineProcess Station} (h : SoundProcess d p) :
    SoundProcess d p.markDead :=
  ⟨h.runtime, h.framing, h.toy, fun hu => absurd hu Bool.false_ne_true⟩

theorem viewOf_markDead [Build] (p : EngineProcess Station) : viewOf p.markDead = (viewOf p).ended := rfl

theorem ended_of_dead {v : EngineView} (h : v.isAlive = false) : v.ended = v := by
  obtain ⟨isAlive, table, received⟩ := v
  cases h
  rfl

variable [Build] {d : Descriptor} (hd : d.framing.IsSafe) {p : EngineProcess Station} (h : SoundProcess d p)

include hd h

/-- **Evaluating a source text is a step of the view.** -/
theorem evaluate_eq (context : ContextId) (source marker : String) :
    ∃ p', EngineProcess.evaluate (.escaped context source) marker p =
        (((viewOf p).evaluate d.name marker context source).1, p') ∧
      SoundProcess d p' ∧ viewOf p' = ((viewOf p).evaluate d.name marker context source).2 := by
  by_cases ha : p.isAlive
  · obtain ⟨table, heard, rfl, htable⟩ := h.eq_idle ha
    obtain ⟨heard', hheard, hex⟩ :=
      exchange_idle hd table heard (Request.isPlain_escaped context source)
    have hsound := Engine.sound_of_evaluate (Text.escape source).toList (htable.scope context)
    have hkeep := htable.keep hsound.2 context
    rw [EngineProcess.evaluate, Attempt.bind_apply_of_ok hex, viewOf_idle, EngineView.evaluate, if_pos rfl,
      EngineView.afterEvaluate, EngineView.outcome, EngineView.scope, ← hheard]
    simp only [Request.escaped, Table.serve]
    generalize Engine.evaluate (Text.escape source).toList (table.scope context) = result at hsound hkeep
    obtain ⟨outcome, scope⟩ := result
    cases outcome with
    | value v =>
      have hreply := Reply.ofLine_ok (v := v) hsound.1 marker
      refine ⟨idleProcess d (table.keep context scope) heard', ?_, soundProcess_idle hkeep heard', rfl⟩
      simp only [Outcome.response?, Option.map_some, hreply]
      rfl
    | error message =>
      have hreply := Reply.ofLine_err message marker
      refine ⟨idleProcess d (table.keep context scope) heard', ?_, soundProcess_idle hkeep heard', rfl⟩
      simp only [Outcome.response?, Option.map_some, hreply, hostResult]
      by_cases hm : Response.marks marker message
      · simp only [if_pos hm]
        rfl
      · simp only [if_neg hm]
        rfl
    | exit =>
      refine ⟨⟨d.name, servedTransport d (table.keep context scope) heard' true, false⟩, rfl, ?_, rfl⟩
      exact ⟨rfl, rfl, ⟨_, rfl⟩, fun hu => absurd hu Bool.false_ne_true⟩
  · rw [Bool.not_eq_true] at ha
    have hv : (viewOf p).isAlive = false := ha
    refine ⟨p.markDead, ?_, soundProcess_of_dead h, ?_⟩
    · rw [EngineProcess.evaluate, Attempt.bind_apply_of_error (EngineProcess.exchange_of_dead ha _),
        EngineView.evaluate, if_neg (by rw [hv]; decide), h.runtime]
    · rw [viewOf_markDead, ended_of_dead hv, EngineView.evaluate, if_neg (by rw [hv]; decide)]

/-- **Having a context forgotten is a step of the view**, and it succeeds while the engine is alive. -/
theorem teardown_eq (context : ContextId) (ha : p.isAlive) :
    ∃ p', EngineProcess.teardown context p = (.ok (), p') ∧ SoundProcess d p' ∧
      viewOf p' = (viewOf p).teardown context := by
  obtain ⟨table, heard, rfl, htable⟩ := h.eq_idle ha
  obtain ⟨heard', hheard, hex⟩ := exchange_idle hd table heard (Request.isPlain_teardown context)
  refine ⟨idleProcess d (table.forget context) heard', ?_, soundProcess_idle (htable.forget context) heard',
    ?_⟩
  · rw [EngineProcess.teardown, Attempt.bind_apply_of_ok hex]
    rfl
  · rw [viewOf_idle, viewOf_idle, EngineView.teardown, hheard]

omit hd

theorem sever_eq : SoundProcess d p.sever ∧ viewOf p.sever = (viewOf p).ended := by
  obtain ⟨t, ht⟩ := h.toy
  have hkill : Peer.kill p.transport.peer = p.transport.peer := by
    show (if Engine.LineProgram.isSupervised p.transport.peer.program = true then _ else _) = _
    rw [ht]
    rfl
  have heq : p.sever = p.markDead := by
    rw [EngineProcess.sever, hkill]
    rfl
  rw [heq]
  exact ⟨soundProcess_of_dead h, viewOf_markDead p⟩

theorem close_eq : SoundProcess d p.close ∧ viewOf p.close = (viewOf p).ended := by
  obtain ⟨t, ht⟩ := h.toy
  have hprogram : p.transport.close.peer.program = p.transport.peer.program := by
    rw [Transport.close]
    split <;> rfl
  have hframing : p.transport.close.framing = p.transport.framing := by
    rw [Transport.close]
    split <;> rfl
  have hkill : Peer.kill p.transport.close.peer = p.transport.close.peer := by
    show (if Engine.LineProgram.isSupervised p.transport.close.peer.program = true then _ else _) = _
    rw [hprogram, ht]
    rfl
  have hclose : p.close = ⟨p.runtime, p.transport.close, false⟩ := by
    rw [EngineProcess.close, hkill]
  rw [hclose]
  refine ⟨⟨h.runtime, hframing.trans h.framing, ⟨t, hprogram.trans ht⟩,
    fun hu => absurd hu Bool.false_ne_true⟩, ?_⟩
  show (⟨false, tableOf p.transport.close.peer.program, Heard.requests (Engine.LineProgram.heard _)⟩ :
    EngineView) = _
  rw [hprogram]
  rfl

end EnginePipe.Channel
