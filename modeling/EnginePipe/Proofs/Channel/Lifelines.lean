import EnginePipe.Channel.Lifeline
import EnginePipe.Proofs.Channel.Pairing

/-!
# Death is final and silent

Whether a process can be used stands in a flag that all its lifelines share, while the streams are the
process's own.  So there is something to show: that nobody looks at another flag, that nothing puts the flag
up again, and that streams are closed only when the flag is down, or goes down with them.

* `EngineProcess.Linked`, `EngineProcess.linked_left`: the link between the flag and the streams.
* `Holding.Coherent.moves_step`: what one deed does, to the flag, the process and the lifelines.
* `Holding.Coherent.run`, `Holding.Coherent.silenced_run`: what all deeds keep, and what they leave of a dead
  process.
* `Holding.final_and_silent`: **handles agree, and a dead process is dead for good**.
-/

namespace EnginePipe.Channel

variable {ω : Type} [Sink ω]

/-! ### The process by itself -/

namespace EngineProcess

/-- A process that can be used has open streams. -/
def Linked (p : EngineProcess (Streams ω)) : Prop := p.isAlive → p.transport.isClosed = false

theorem linked_of_dead {p : EngineProcess (Streams ω)} (h : p.isAlive = false) : p.Linked := by
  intro ha
  exact absurd (h.symm.trans ha) Bool.false_ne_true

/-- Nothing that is done with a process renames it. -/
theorem runtime_left (p : EngineProcess (Streams ω)) (operation : Operation) :
    (operation.left p).runtime = p.runtime := by
  cases operation with
  | ask question =>
    show (question.ask p).2.runtime = p.runtime
    by_cases ha : p.isAlive
    · rw [Question.ask_eq, Question.runtime_leave, exchange_of_alive ha]
    · rw [Question.ask_of_dead (Bool.eq_false_iff.2 ha)]
      rfl
  | finish ending => cases ending <;> rfl

/-- No operation closes the streams of a process that it leaves alive. -/
theorem linked_left {p : EngineProcess (Streams ω)} (h : p.Linked) (operation : Operation) :
    (operation.left p).Linked := by
  cases operation with
  | ask question =>
    show (question.ask p).2.Linked
    by_cases ha : p.isAlive
    · cases hd : deliver (p.transport.framing.wire question.request) p.transport.peer with
      | mk result peer =>
        cases result with
        | ok _ =>
          intro _
          rw [Question.ask_of_delivered ha (h ha) hd, Question.transport_leave]
          exact h ha
        | error reason =>
          rw [Question.ask_of_failed ha (h ha) hd]
          exact linked_of_dead rfl
    · rw [Question.ask_of_dead (Bool.eq_false_iff.2 ha)]
      exact linked_of_dead rfl
  | finish ending =>
    apply linked_of_dead
    cases ending <;> rfl

/-- Closing leaves a sink and an output as they are. -/
theorem peer_close (t : Transport (Streams ω)) : t.close.peer = t.peer := by
  unfold Transport.close
  split <;> rfl

/-- A dead process stays dead, whatever is done with it, and nothing of its peer changes. -/
theorem left_of_dead {p : EngineProcess (Streams ω)} (h : p.isAlive = false) (operation : Operation) :
    (operation.left p).isAlive = false ∧ (operation.left p).transport.peer = p.transport.peer := by
  cases operation with
  | ask question =>
    show (question.ask p).2.isAlive = false ∧ (question.ask p).2.transport.peer = p.transport.peer
    rw [Question.ask_of_dead h]
    exact ⟨rfl, rfl⟩
  | finish ending =>
    cases ending with
    | markDead => exact ⟨rfl, rfl⟩
    | sever => exact ⟨rfl, rfl⟩
    | close => exact ⟨rfl, peer_close p.transport⟩
    | kill => exact ⟨rfl, peer_close p.sever.transport⟩

/-- A question never finds a stream closed: it is refused before it gets there. -/
theorem ask_ne_closed {p : EngineProcess (Streams ω)} (h : p.Linked) (question : Question) :
    (question.ask p).1 ≠ .error (.desync .inputClosed) ∧
      (question.ask p).1 ≠ .error (.desync .outputClosed) := by
  by_cases ha : p.isAlive
  · cases hd : deliver (p.transport.framing.wire question.request) p.transport.peer with
    | mk result peer =>
      cases result with
      | ok _ =>
        rw [Question.ask_of_delivered ha (h ha) hd]
        exact answerTo_ne_closed _ _ _
      | error reason =>
        rw [Question.ask_of_failed ha (h ha) hd]
        constructor <;> simp
  · rw [Question.ask_of_dead (Bool.eq_false_iff.2 ha)]
    constructor <;> simp
where
  answerTo_ne_closed (runtime : String) (line : List UInt8) (question : Question) :
      question.answerTo runtime line ≠ .error (.desync .inputClosed) ∧
        question.answerTo runtime line ≠ .error (.desync .outputClosed) := by
    have htext : ∀ e, Question.textOf line = .error e → e = .desync (.readFailed Text.invalidText) := by
      intro e he
      unfold Question.textOf at he
      split at he
      · cases he
      · split at he <;> cases he
        rfl
    unfold Question.answerTo
    cases ht : Question.textOf line with
    | error e =>
      rw [Question.conclude_error, htext e ht]
      constructor <;> simp
    | ok text =>
      cases question with
      | exchange request => constructor <;> simp [Question.conclude, Except.map]
      | teardown context => cases text <;> constructor <;> simp [Question.conclude, Except.bind]
      | evaluate request marker =>
        simp only [Question.conclude, Except.bind]
        constructor <;> split <;> simp

end EngineProcess

/-! ### One deed -/

/-- What is learned of a process: whether it is alive, or what a question comes to. -/
inductive Finding.Tells (p : EngineProcess (Streams ω)) : Finding → Prop
  | looked : Tells p (.looked p.isAlive)
  | asked (question : Question) : Tells p (.asked ⟨question, p.isAlive, (question.ask p).1⟩)

/-- What is learned of a process that is dead. -/
inductive Finding.Refuses (runtime : String) : Finding → Prop
  | looked : Refuses runtime (.looked false)
  | asked (question : Question) :
    Refuses runtime (.asked ⟨question, false, .error (.desync (.notRunning runtime))⟩)

namespace Holding

/-- What a deed may do. -/
structure Moves (h h' : Holding ω) : Prop where
  own : h'.own = h.own
  runtime : h'.runtime = h.runtime
  process : h'.process = h.process ∨ ∃ operation : Operation, h'.process = operation.left h.process
  flags : h'.flags = h.flags.set h.own.place h'.process.isAlive
  lifelines : ∀ l ∈ h'.lifelines, l ∈ h.lifelines ∨ l = h.own
  findings : ∃ learned, h'.findings = h.findings ++ learned ∧ ∀ f ∈ learned, Finding.Tells h.process f

theorem Moves.learn {h h' : Holding ω} (hm : Moves h h') (hfindings : h'.findings = h.findings)
    {f : Finding} (hf : Finding.Tells h.process f) : Moves h (h'.learn f) where
  own := hm.own
  runtime := hm.runtime
  process := hm.process
  flags := hm.flags
  lifelines := hm.lifelines
  findings := by
    refine ⟨[f], ?_, by simpa using hf⟩
    rw [← hfindings]
    rfl

/-- All handles of a process know the place of its flag, which is linked to the streams.  So no question that
was asked has found a stream closed. -/
structure Coherent (others : List Bool) (h : Holding ω) : Prop where
  flags : h.flags = others ++ [h.process.isAlive]
  own : h.own.place = others.length
  lifelines : ∀ l ∈ h.lifelines, l = h.own
  linked : h.process.Linked
  met : ∀ entry, .asked entry ∈ h.findings → entry.result ≠ .error (.desync .inputClosed) ∧
    entry.result ≠ .error (.desync .outputClosed)

theorem coherent_start (others : List Bool) (runtime : String) (s : Streams ω) (framing : Framing) :
    Coherent others (start others runtime s framing) where
  flags := by simp [start, process, isAlive_streams, Lifeline.isAlive]
  own := rfl
  lifelines := by simp [start]
  linked := fun _ => rfl
  met := by simp [start]

namespace Coherent

variable {others : List Bool} {h : Holding ω} (hc : Coherent others h)

include hc

theorem process_keep {p : EngineProcess (Streams ω)} (hp : p.runtime = h.runtime) :
    (h.keep p).process = p := by
  have hflag : h.own.isAlive (h.flags.set h.own.place p.usable) = p.usable := by
    rw [Lifeline.isAlive, hc.flags, hc.own]
    simp
  obtain ⟨runtime, transport, usable⟩ := p
  cases hp
  exact congrArg (EngineProcess.mk h.runtime transport) hflag

theorem moves_keep (operation : Operation) : Moves h (h.keep (operation.left h.process)) := by
  have hprocess := hc.process_keep (EngineProcess.runtime_left h.process operation)
  refine ⟨rfl, rfl, .inr ⟨operation, hprocess⟩, ?_, fun l hl => .inl hl, [], (List.append_nil _).symm, by simp⟩
  rw [hprocess, isAlive_streams]
  rfl

/-- More lifelines change nothing but that there are more. -/
theorem moves_share {more : List Lifeline} (hmore : ∀ l ∈ more, l = h.own) :
    Moves h { h with lifelines := h.lifelines ++ more } where
  own := rfl
  runtime := rfl
  process := .inl rfl
  flags := by
    show h.flags = h.flags.set h.own.place h.process.isAlive
    rw [hc.flags, hc.own]
    simp
  lifelines := by
    intro l hl
    exact (List.mem_append.1 hl).imp id (hmore l)
  findings := ⟨[], (List.append_nil _).symm, by simp⟩

theorem moves_self : Moves h h := by
  have hnone : Moves h { h with lifelines := h.lifelines ++ [] } := hc.moves_share (by simp)
  rwa [List.append_nil] at hnone

/-- Through a lifeline the flag is dropped as the process itself would drop it. -/
theorem moves_through (i : Nat) : Moves h (h.through i Lifeline.markDead) := by
  unfold through
  cases hl : h.lifelines[i]? with
  | none => exact hc.moves_self
  | some l =>
    cases hc.lifelines l (List.mem_of_getElem? hl)
    exact hc.moves_keep (.finish .markDead)

theorem isAlive_eq {l : Lifeline} (hl : l ∈ h.lifelines) : l.isAlive h.flags = h.process.isAlive := by
  rw [hc.lifelines l hl, isAlive_streams]
  rfl

theorem moves_look (i : Nat) : Moves h (h.look i) := by
  unfold look
  cases hl : h.lifelines[i]? with
  | none => exact hc.moves_self
  | some l =>
    dsimp only
    rw [hc.isAlive_eq (List.mem_of_getElem? hl)]
    exact hc.moves_self.learn rfl .looked

/-- **What one deed does.** -/
theorem moves_step (deed : Deed) : Moves h (h.step deed) := by
  cases deed with
  | use operation =>
    cases operation with
    | ask question => exact (hc.moves_keep (.ask question)).learn rfl (.asked question)
    | finish ending => exact hc.moves_keep (.finish ending)
  | share => exact hc.moves_share fun l hl => List.mem_singleton.1 hl
  | clone i =>
    refine hc.moves_share fun l hl => hc.lifelines l ?_
    exact List.mem_of_getElem? (Option.mem_toList.1 hl)
  | look i => exact hc.moves_look i
  | markDead i => exact hc.moves_through i
  | kill i => exact hc.moves_through i

end Coherent

theorem Moves.coherent {others : List Bool} {h h' : Holding ω} (hm : Moves h h') (hc : Coherent others h) :
    Coherent others h' where
  flags := by
    rw [hm.flags, hc.own, hc.flags]
    simp
  own := by rw [hm.own, hc.own]
  lifelines := by
    intro l hl
    rw [hm.own]
    exact (hm.lifelines l hl).elim (hc.lifelines l) id
  linked := by
    rcases hm.process with hp | ⟨operation, hp⟩
    · rw [hp]
      exact hc.linked
    · rw [hp]
      exact EngineProcess.linked_left hc.linked operation
  met := by
    obtain ⟨learned, hfindings, htells⟩ := hm.findings
    intro entry hentry
    rw [hfindings] at hentry
    rcases List.mem_append.1 hentry with hold | hnew
    · exact hc.met entry hold
    · cases htells _ hnew with
      | asked question => exact EngineProcess.ask_ne_closed hc.linked question

/-! ### All deeds -/

theorem Coherent.run {others : List Bool} {h : Holding ω} (hc : Coherent others h) (deeds : List Deed) :
    Coherent others (h.run deeds) := by
  induction deeds generalizing h with
  | nil => exact hc
  | cons deed deeds ih => exact ih ((hc.moves_step deed).coherent hc)

/-- What is left of a dead process when more has been done: it is dead, its sink and its output are the same,
and everything is refused. -/
structure Silenced (h h' : Holding ω) : Prop where
  dead : h'.process.isAlive = false
  runtime : h'.runtime = h.runtime
  peer : h'.transport.peer = h.transport.peer
  findings : ∃ learned, h'.findings = h.findings ++ learned ∧ ∀ f ∈ learned, Finding.Refuses h.runtime f

theorem Moves.silenced {h h' : Holding ω} (hm : Moves h h') (hd : h.process.isAlive = false) :
    Silenced h h' := by
  obtain ⟨learned, hfindings, htells⟩ := hm.findings
  have hrefuses : ∀ f ∈ learned, Finding.Refuses h.runtime f := by
    intro f hf
    cases htells f hf with
    | looked =>
      rw [hd]
      exact .looked
    | asked question =>
      rw [Question.ask_of_dead hd, hd]
      exact .asked question
  rcases hm.process with hp | ⟨operation, hp⟩
  · exact ⟨by rw [hp, hd], hm.runtime, congrArg (·.transport.peer) hp, learned, hfindings, hrefuses⟩
  · obtain ⟨hdead, hpeer⟩ := EngineProcess.left_of_dead hd operation
    exact ⟨by rw [hp, hdead], hm.runtime, (congrArg (·.transport.peer) hp).trans hpeer, learned, hfindings,
      hrefuses⟩

theorem Silenced.trans {h h' h'' : Holding ω} (h₁ : Silenced h h') (h₂ : Silenced h' h'') :
    Silenced h h'' := by
  obtain ⟨first, hfirst, hrefuses⟩ := h₁.findings
  obtain ⟨second, hsecond, hrefuses'⟩ := h₂.findings
  refine ⟨h₂.dead, h₂.runtime.trans h₁.runtime, h₂.peer.trans h₁.peer, first ++ second, ?_, ?_⟩
  · rw [hsecond, hfirst, List.append_assoc]
  · intro f hf
    rcases List.mem_append.1 hf with hf | hf
    · exact hrefuses f hf
    · exact h₁.runtime ▸ hrefuses' f hf

/-- **A dead process stays dead**, and nothing reaches its streams. -/
theorem Coherent.silenced_run {others : List Bool} {h : Holding ω} (hc : Coherent others h)
    (hd : h.process.isAlive = false) (deeds : List Deed) : Silenced h (h.run deeds) := by
  induction deeds generalizing h with
  | nil => exact ⟨hd, rfl, rfl, [], (List.append_nil _).symm, by simp⟩
  | cons deed deeds ih =>
    have hm := hc.moves_step deed
    have hfirst := hm.silenced hd
    exact hfirst.trans (ih (hm.coherent hc) hfirst.dead)

/-- How a process and its lifelines stand at any time. -/
structure Consistent (others : List Bool) (h : Holding ω) : Prop where
  agree : ∀ l ∈ h.own :: h.lifelines, l.isAlive h.flags = h.process.isAlive
  /-- No other process is touched. -/
  others : h.flags.take others.length = others
  /-- Both streams are open as long as the process is alive. -/
  isOpen : h.process.isAlive → h.transport.isClosed = false
  /-- No question has found one of them closed. -/
  met : ∀ entry, .asked entry ∈ h.findings → entry.result ≠ .error (.desync .inputClosed) ∧
    entry.result ≠ .error (.desync .outputClosed)

/-- **Death is final and silent.**  Whatever is done with a process over connected streams and with its
lifelines, all of them say the same about it, and its streams are open while it is alive.  Once it is dead,
more deeds change nothing of its sink and its output, every question is refused and every lifeline says that it
is dead. -/
theorem final_and_silent (others : List Bool) (runtime : String) (s : Streams ω) (framing : Framing)
    (deeds more : List Deed) :
    let h := (start others runtime s framing).run deeds
    Consistent others h ∧ (h.process.isAlive = false → Silenced h (h.run more)) := by
  intro h
  have hc : Coherent others h := (coherent_start others runtime s framing).run deeds
  refine ⟨⟨?_, ?_, hc.linked, hc.met⟩, fun hd => hc.silenced_run hd more⟩
  · intro l hl
    rcases List.mem_cons.1 hl with rfl | hl
    · exact (isAlive_streams h.process).symm
    · exact hc.isAlive_eq hl
  · rw [hc.flags, List.take_left]

end Holding

end EnginePipe.Channel
