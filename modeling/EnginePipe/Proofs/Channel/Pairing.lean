import EnginePipe.Proofs.Channel.Tapping
import EnginePipe.Proofs.Text.Lines

/-!
# Requests and answers in step

An answer does not say which request it is for, so requests and answers are told apart by their order only.
A **conversation** is what crosses between a process and its peer, request by request: a turn is a whole
wire, a flush and a line; the last request may be torn by a refusal of the peer, and then the process is dead.

* `Conversation.Explains`: what was issued, what crossed and what came of it agree with a conversation.
* `Conversation.Explains.step`, `Conversation.Explains.run`: **every operation goes on with the
  conversation**, whatever the sink does.
* `Usage.paired`: what this says of the bytes, the flushes, the lines and the results.
* `EngineProcess.severedExchange_eq`: an end that comes during an exchange is one that comes behind it.
-/

namespace EnginePipe.Channel

variable {ω : Type} [Sink ω]

/-! ### Streams -/

theorem writeAll_output (data : List UInt8) (s : Streams ω) : (writeAll data s).2.output = s.output := by
  induction hn : data.length using Nat.strongRecOn generalizing data s with
  | ind n ih =>
    cases data with
    | nil => rw [writeAll_nil]
    | cons b rest =>
      rw [List.length_cons] at hn
      rw [writeAll]
      have hwrite : (Sink.write (b :: rest) s).2.output = s.output := rfl
      cases hw : Sink.write (b :: rest) s with
      | mk result s' =>
        rw [hw] at hwrite
        cases result with
        | error reason => exact hwrite
        | ok taken =>
          cases taken with
          | zero => exact hwrite
          | succ taken =>
            have hrest := ih (rest.drop taken).length (by rw [List.length_drop]; omega) (rest.drop taken) s' rfl
            exact hrest.trans hwrite

theorem deliver_output (data : List UInt8) (s : Streams ω) : (deliver data s).2.output = s.output := by
  have hwrite := writeAll_output data s
  unfold deliver
  cases hw : writeAll data s with
  | mk result s' =>
    rw [hw] at hwrite
    cases result with
    | error reason => exact hwrite
    | ok _ => exact hwrite

theorem isAlive_streams (p : EngineProcess (Streams ω)) : p.isAlive = p.usable := by
  simp [EngineProcess.isAlive, Peer.hasExited]

/-! ### One question -/

namespace Question

variable {π : Type} [Peer π]

omit [Peer π] in
theorem conclude_error (question : Question) (runtime : String) (e : Error) :
    question.conclude runtime (.error e) = .error e := by
  cases question <;> rfl

theorem ask_of_dead {p : EngineProcess π} (h : p.isAlive = false) (question : Question) :
    question.ask p = (.error (.desync (.notRunning p.runtime)), p.markDead) := by
  rw [ask_eq, EngineProcess.exchange_of_dead h, conclude_error]
  rfl

variable {p : EngineProcess π} (ha : p.isAlive) (ho : p.transport.isClosed = false) {question : Question}
  {peer : π}

include ha ho

theorem ask_of_delivered
    (hd : deliver (p.transport.framing.wire question.request) p.transport.peer = (.ok (), peer)) :
    question.ask p = (question.answerTo p.runtime (Peer.readLine peer).1,
      question.leave (textOf (Peer.readLine peer).1)
        { p with
          transport := { p.transport with peer := (Peer.readLine peer).2 }
          usable := (textOf (Peer.readLine peer).1).isOk }) := by
  rw [ask_eq, EngineProcess.exchange_of_alive ha, Transport.roundTrip_of_delivered ho hd]
  rfl

theorem ask_of_failed {reason : String}
    (hd : deliver (p.transport.framing.wire question.request) p.transport.peer = (.error reason, peer)) :
    question.ask p = (.error (.desync (.writeFailed reason)),
      { p with transport := { p.transport with peer }, usable := false }) := by
  rw [ask_eq, EngineProcess.exchange_of_alive ha, Transport.roundTrip_of_failed ho hd, conclude_error]
  rfl

end Question

/-! ### Ends during an exchange -/

/-- An exchange during which somebody ends the process by its lifeline, behind the writing and before the
reading. -/
def EngineProcess.severedExchange {π : Type} [Peer π] (request : Request) :
    Attempt (EngineProcess π) (Option String) := fun p =>
  if p.isAlive then
    match Transport.send request p.transport with
    | (.error e, transport) => (.error e, { p with transport, usable := false })
    | (.ok (), transport) =>
      let p := EngineProcess.sever { p with transport }
      match Transport.receive p.transport with
      | (.ok line, transport) => (.ok line, { p with transport })
      | (.error e, transport) => (.error e, { p with transport, usable := false })
  else (.error (.desync (.notRunning p.runtime)), p.markDead)

/-- It does not matter when in an exchange the lifeline ends a process: it comes to the same afterwards.  So
only ends between the questions need be looked at. -/
theorem EngineProcess.severedExchange_eq (p : EngineProcess (Streams ω)) (request : Request) :
    severedExchange request p = ((exchange request p).1, (exchange request p).2.sever) := by
  by_cases ha : p.isAlive
  · rw [severedExchange, if_pos ha, exchange, if_pos ha, Transport.roundTrip, Attempt.bind_apply]
    cases hsend : Transport.send request p.transport with
    | mk sent t =>
      cases sent with
      | error e => rfl
      | ok _ =>
        have htransport : (sever { p with transport := t }).transport = t := rfl
        dsimp only
        rw [htransport]
        cases Transport.receive t with
        | mk read t' => cases read <;> rfl
  · rw [severedExchange, if_neg ha, exchange, if_neg ha]
    rfl

/-! ### Conversations -/

/-- A request that was answered: what its question came to, the pieces of its wire, and the line. -/
structure Turn where
  entry : Entry
  pieces : List (List UInt8)
  line : List UInt8

/-- What crosses in a turn. -/
def Turn.crossings (t : Turn) : List Crossing := t.pieces.map .took ++ [.flushed, .gave t.line]

/-- The pieces are the wire, and the result is what the line makes of the question. -/
structure Turn.Orderly (framing : Framing) (runtime : String) (t : Turn) : Prop where
  wire : t.pieces.flatten = framing.wire t.entry.question.request
  result : t.entry.result = t.entry.question.answerTo runtime t.line

/-- A request that could not be sent, the pieces of its wire that were taken, and what is said of the refusal. -/
structure Tear where
  entry : Entry
  pieces : List (List UInt8)
  reason : String

/-- What crosses in a tear. -/
def Tear.crossings (t : Tear) : List Crossing := t.pieces.map .took ++ [.refused t.reason]

/-- The pieces are from the front of the wire, and the result is the refusal. -/
structure Tear.Orderly (framing : Framing) (t : Tear) : Prop where
  part : t.pieces.flatten <+: framing.wire t.entry.question.request
  result : t.entry.result = .error (.desync (.writeFailed t.reason))

/-- All that crosses between a process and its peer. -/
structure Conversation where
  turns : List Turn := []
  tear : Option Tear := none

namespace Conversation

/-- What crosses in a conversation. -/
def crossings (c : Conversation) : List Crossing :=
  c.turns.flatMap Turn.crossings ++ c.tear.toList.flatMap Tear.crossings

/-- The questions of a conversation. -/
def entries (c : Conversation) : List Entry := c.turns.map (·.entry) ++ c.tear.toList.map (·.entry)

/-- A conversation is what a usage came to, of a process with a framing and the name of a runtime, and of a
peer that had an output at the start. -/
structure Explains (framing : Framing) (runtime : String) (output : List UInt8) (c : Conversation)
    (u : Usage (Streams ω)) : Prop where
  framing_eq : u.process.transport.framing = framing
  runtime_eq : u.process.runtime = runtime
  isOpen : u.process.usable → u.process.transport.isClosed = false
  issued : u.issued = c.entries
  turns : ∀ t ∈ c.turns, t.Orderly framing runtime
  lines : c.turns.map (·.line) = (List.range c.turns.length).map (Text.lineOf output)
  rest : ∀ i, Text.lineOf u.process.transport.peer.output i = Text.lineOf output (c.turns.length + i)
  tear : ∀ t ∈ c.tear, t.Orderly framing ∧ u.process.usable = false

namespace Explains

variable {framing : Framing} {runtime : String} {output : List UInt8} {c : Conversation}

omit [Sink ω] in
theorem start (framing : Framing) (runtime : String) (s : Streams ω) :
    Explains framing runtime s.output {} { process := EngineProcess.ofPeer runtime s framing } where
  framing_eq := rfl
  runtime_eq := rfl
  isOpen := fun _ => rfl
  issued := rfl
  turns := by simp
  lines := rfl
  rest := by simp [EngineProcess.ofPeer]
  tear := by simp

variable {u : Usage (Streams ω)} (h : Explains framing runtime output c u)

include h

omit [Sink ω] in
/-- Ending the process leaves the conversation as it is. -/
theorem ended {u' : Usage (Streams ω)} (hissued : u'.issued = u.issued)
    (hframing : u'.process.transport.framing = u.process.transport.framing)
    (hruntime : u'.process.runtime = u.process.runtime)
    (houtput : u'.process.transport.peer.output = u.process.transport.peer.output)
    (husable : u'.process.usable = false) : Explains framing runtime output c u' where
  framing_eq := hframing.trans h.framing_eq
  runtime_eq := hruntime.trans h.runtime_eq
  isOpen := fun hu => absurd (husable.symm.trans hu) Bool.false_ne_true
  issued := hissued.trans h.issued
  turns := h.turns
  lines := h.lines
  rest := fun i => houtput ▸ h.rest i
  tear := fun t ht => ⟨(h.tear t ht).1, husable⟩

theorem finish (ending : Ending) : Explains framing runtime output c (u.step (.finish ending)) := by
  have hclose : ∀ t : Transport (Streams ω),
      t.close.framing = t.framing ∧ t.close.peer.output = t.peer.output := by
    intro t
    unfold Transport.close
    split <;> exact ⟨rfl, rfl⟩
  cases ending with
  | markDead => exact h.ended rfl rfl rfl rfl rfl
  | sever => exact h.ended rfl rfl rfl rfl rfl
  | close => exact h.ended rfl (hclose _).1 rfl (hclose _).2 rfl
  | kill => exact h.ended rfl (hclose u.process.sever.transport).1 rfl (hclose u.process.sever.transport).2 rfl

theorem ask_of_dead (hdead : u.process.isAlive = false) (question : Question) :
    Explains framing runtime output c (u.step (.ask question)) := by
  have hissued : (u.step (.ask question)).issued = u.issued := by
    unfold Usage.issued Usage.step
    simp only [List.filter_append, List.filter_singleton, hdead, cond_false, List.append_nil]
  have hprocess : (u.step (.ask question)).process = u.process.markDead := by
    show (question.ask u.process).2 = _
    rw [Question.ask_of_dead hdead]
  exact h.ended hissued (by rw [hprocess]; rfl) (by rw [hprocess]; rfl) (by rw [hprocess]; rfl)
    (by rw [hprocess]; rfl)

theorem not_torn (ha : u.process.isAlive) : c.tear = none := by
  rw [isAlive_streams] at ha
  cases ht : c.tear with
  | none => rfl
  | some t => exact absurd ((h.tear t ht).2.symm.trans ha) Bool.false_ne_true

theorem issued_ask (ha : u.process.isAlive) (question : Question) :
    (u.step (.ask question)).issued =
      c.turns.map (·.entry) ++ [⟨question, true, (question.ask u.process).1⟩] := by
  have hentries := h.issued
  rw [entries, h.not_torn ha, Option.toList_none, List.map_nil, List.append_nil] at hentries
  rw [← hentries]
  unfold Usage.issued Usage.step
  simp only [List.filter_append, List.filter_singleton, ha, cond_true]

/-- A question that is sent adds a turn. -/
theorem ask_of_delivered (ha : u.process.isAlive) {question : Question} {pieces : List (List UInt8)}
    {peer : Streams ω} (hpieces : pieces.flatten = framing.wire question.request)
    (hd : deliver (framing.wire question.request) u.process.transport.peer = (.ok (), peer)) :
    Explains framing runtime output
      { turns := c.turns ++
          [⟨⟨question, true, (question.ask u.process).1⟩, pieces, (Peer.readLine peer).1⟩] }
      (u.step (.ask question)) := by
  have hissued := h.issued_ask ha question
  have hopen : u.process.transport.isClosed = false := h.isOpen (by rwa [← isAlive_streams])
  rw [← h.framing_eq] at hd
  have hask := Question.ask_of_delivered ha hopen hd
  have houtput : peer.output = u.process.transport.peer.output := by
    rw [← deliver_output (u.process.transport.framing.wire question.request) u.process.transport.peer, hd]
  have hline : (Peer.readLine peer).1 = Text.lineOf output c.turns.length := by
    show (Text.takeLine peer.output).1 = _
    rw [← Text.lineOf_zero, houtput, h.rest 0, Nat.add_zero]
  have htransport : (u.step (.ask question)).process.transport =
      { u.process.transport with peer := (Peer.readLine peer).2 } := by
    show (question.ask u.process).2.transport = _
    rw [hask, Question.transport_leave]
  have hruntime : (u.step (.ask question)).process.runtime = u.process.runtime := by
    show (question.ask u.process).2.runtime = _
    rw [hask, Question.runtime_leave]
  refine ⟨?framing_eq, ?runtime_eq, ?isOpen, ?issued, ?turns, ?lines, ?rest, ?tear⟩
  case framing_eq =>
    rw [htransport]
    exact h.framing_eq
  case runtime_eq => exact hruntime.trans h.runtime_eq
  case isOpen =>
    intro _
    rw [htransport]
    exact hopen
  case issued =>
    rw [hissued, entries]
    simp
  case turns =>
    intro t ht
    rcases List.mem_append.1 ht with ht | ht
    · exact h.turns t ht
    · rw [List.mem_singleton.1 ht]
      refine ⟨hpieces, ?_⟩
      show (question.ask u.process).1 = _
      rw [hask, h.runtime_eq]
  case lines =>
    simp only [List.map_append, h.lines, List.length_append, List.length_singleton, List.range_succ,
      List.map_cons, List.map_nil, hline]
  case rest =>
    intro i
    rw [htransport, List.length_append, List.length_singleton]
    show Text.lineOf (Text.takeLine peer.output).2 i = _
    rw [← Text.lineOf_succ, houtput, h.rest, Nat.add_assoc, Nat.add_comm 1 i]
  case tear => simp

/-- A question that cannot be sent tears the conversation. -/
theorem ask_of_failed (ha : u.process.isAlive) {question : Question} {pieces : List (List UInt8)}
    {peer : Streams ω} {reason : String} (hpieces : pieces.flatten <+: framing.wire question.request)
    (hd : deliver (framing.wire question.request) u.process.transport.peer = (.error reason, peer)) :
    Explains framing runtime output
      { turns := c.turns, tear := some ⟨⟨question, true, (question.ask u.process).1⟩, pieces, reason⟩ }
      (u.step (.ask question)) := by
  have hissued := h.issued_ask ha question
  have hopen : u.process.transport.isClosed = false := h.isOpen (by rwa [← isAlive_streams])
  rw [← h.framing_eq] at hd
  have hask := Question.ask_of_failed ha hopen hd
  have houtput : peer.output = u.process.transport.peer.output := by
    rw [← deliver_output (u.process.transport.framing.wire question.request) u.process.transport.peer, hd]
  have hprocess : (u.step (.ask question)).process =
      { u.process with transport := { u.process.transport with peer }, usable := false } := by
    show (question.ask u.process).2 = _
    rw [hask]
  refine ⟨?framing_eq, ?runtime_eq, ?isOpen, ?issued, h.turns, h.lines, ?rest, ?tear⟩
  case framing_eq =>
    rw [hprocess]
    exact h.framing_eq
  case runtime_eq =>
    rw [hprocess]
    exact h.runtime_eq
  case isOpen =>
    intro hu
    rw [hprocess] at hu
    exact absurd hu Bool.false_ne_true
  case issued =>
    rw [hissued, entries]
    rfl
  case rest =>
    intro i
    rw [hprocess]
    show Text.lineOf peer.output i = _
    rw [houtput]
    exact h.rest i
  case tear =>
    intro t ht
    simp only [Option.mem_some_iff] at ht
    subst ht
    refine ⟨⟨hpieces, ?_⟩, ?_⟩
    · show (question.ask u.process).1 = _
      rw [hask]
    · rw [hprocess]

/-- **Every operation goes on with the conversation**: what crosses in it is what the conversation says. -/
theorem step (operation : Operation) :
    ∃ c', (u.tapped c.crossings).step operation = (u.step operation).tapped (crossings c') ∧
      Explains framing runtime output c' (u.step operation) := by
  cases operation with
  | finish ending =>
    refine ⟨c, ?_, h.finish ending⟩
    show Usage.mk (ending.apply (u.process.tapped c.crossings)) u.entries = _
    rw [Ending.apply_tapped]
    rfl
  | ask question =>
    -- A tap writes down what crosses in the exchange of the question.
    have htap : ∀ crossings', EngineProcess.exchange question.request (u.process.tapped c.crossings) =
        ((EngineProcess.exchange question.request u.process).1,
          (EngineProcess.exchange question.request u.process).2.tapped crossings') →
        (u.tapped c.crossings).step (.ask question) = (u.step (.ask question)).tapped crossings' := by
      intro crossings' hexchange
      have hask := Question.ask_tapped hexchange
      show Usage.mk (question.ask (u.process.tapped c.crossings)).2
        (u.entries ++ [⟨question, u.process.isAlive, (question.ask (u.process.tapped c.crossings)).1⟩]) = _
      rw [hask]
      rfl
    by_cases ha : u.process.isAlive
    · have hopen : u.process.transport.isClosed = false := h.isOpen (by rwa [← isAlive_streams])
      have hc : c.crossings = c.turns.flatMap Turn.crossings := by
        rw [crossings, h.not_torn ha, Option.toList_none, List.flatMap_nil, List.append_nil]
      rcases Transport.roundTrip_tapped hopen question.request c.crossings with
        ⟨pieces, peer, hpieces, hd, hround⟩ | ⟨pieces, reason, peer, hpieces, hd, hround⟩
      · rw [h.framing_eq] at hpieces hd
        refine ⟨_, ?_, h.ask_of_delivered ha hpieces hd⟩
        rw [htap _ (EngineProcess.exchange_tapped ha hround), hc, crossings]
        simp [Turn.crossings]
      · rw [h.framing_eq] at hpieces hd
        refine ⟨_, ?_, h.ask_of_failed ha hpieces hd⟩
        rw [htap _ (EngineProcess.exchange_tapped ha hround), hc, crossings]
        simp [Tear.crossings]
    · rw [Bool.not_eq_true] at ha
      exact ⟨c, htap _ (EngineProcess.exchange_tapped_of_dead ha question.request c.crossings),
        h.ask_of_dead ha question⟩

/-- **Operations go on with the conversation**, however many. -/
theorem run (operations : List Operation) :
    ∃ c', (u.tapped c.crossings).run operations = (u.run operations).tapped (crossings c') ∧
      Explains framing runtime output c' (u.run operations) := by
  induction operations generalizing u c with
  | nil => exact ⟨c, rfl, h⟩
  | cons operation operations ih =>
    obtain ⟨c', htap, hc'⟩ := h.step operation
    obtain ⟨c'', hrun, hc''⟩ := ih hc'
    refine ⟨c'', ?_, hc''⟩
    show ((u.tapped c.crossings).step operation).run operations =
      ((u.step operation).run operations).tapped (crossings c'')
    rw [htap, hrun]

end Explains

/-! ### What crosses in a conversation -/

theorem taken_append (xs ys : List Crossing) :
    Crossing.taken (xs ++ ys) = Crossing.taken xs ++ Crossing.taken ys := List.flatMap_append

theorem given_append (xs ys : List Crossing) :
    Crossing.given (xs ++ ys) = Crossing.given xs ++ Crossing.given ys := List.filterMap_append

theorem taken_pieces (pieces : List (List UInt8)) : Crossing.taken (pieces.map .took) = pieces.flatten := by
  induction pieces with
  | nil => rfl
  | cons piece pieces ih => rw [List.map_cons, List.flatten_cons, ← ih]; rfl

theorem given_pieces (pieces : List (List UInt8)) : Crossing.given (pieces.map .took) = [] := by
  induction pieces with
  | nil => rfl
  | cons piece pieces ih => exact ih

variable {framing : Framing} {runtime : String} {turns : List Turn}

theorem taken_turns (h : ∀ t ∈ turns, t.Orderly framing runtime) :
    Crossing.taken (turns.flatMap Turn.crossings) =
      (turns.map (·.entry.question.request)).flatMap framing.wire := by
  induction turns with
  | nil => rfl
  | cons t turns ih =>
    have hrest := ih fun t' ht' => h t' (List.mem_cons_of_mem t ht')
    rw [List.flatMap_cons, taken_append, hrest, Turn.crossings, taken_append, taken_pieces,
      (h t List.mem_cons_self).wire, List.map_cons, List.flatMap_cons]
    simp [Crossing.taken]

theorem given_turns (turns : List Turn) :
    Crossing.given (turns.flatMap Turn.crossings) = turns.map (·.line) := by
  induction turns with
  | nil => rfl
  | cons t turns ih =>
    rw [List.flatMap_cons, given_append, ih, Turn.crossings, given_append, given_pieces]
    rfl

theorem given_crossings (c : Conversation) : Crossing.given c.crossings = c.turns.map (·.line) := by
  rw [crossings, given_append, given_turns]
  cases c.tear with
  | none => simp [Crossing.given]
  | some t =>
    rw [Option.toList_some, List.flatMap_singleton, Tear.crossings, given_append, given_pieces]
    simp [Crossing.given]

/-- A line that was read belongs to a turn, and behind the turns before it only the wire of its own and the
flush have crossed. -/
theorem exists_turn {rest before after : List Crossing} {line : List UInt8}
    (hrest : ∀ line, .gave line ∉ rest)
    (h : turns.flatMap Turn.crossings ++ rest = before ++ .gave line :: after) :
    ∃ done t later, turns = done ++ t :: later ∧ line = t.line ∧
      before = done.flatMap Turn.crossings ++ (t.pieces.map .took ++ [.flushed]) := by
  induction turns generalizing before with
  | nil =>
    rw [List.flatMap_nil, List.nil_append] at h
    exact absurd (h ▸ List.mem_append_right before List.mem_cons_self) (hrest line)
  | cons t turns ih =>
    have hsplit : (t.pieces.map .took ++ [.flushed]) ++
        (.gave t.line :: (turns.flatMap Turn.crossings ++ rest)) = before ++ .gave line :: after := by
      rw [← h, List.flatMap_cons, Turn.crossings]
      simp
    have hsent : Crossing.gave line ∉ t.pieces.map .took ++ [.flushed] := by simp
    rcases List.append_eq_append_iff.1 hsplit with ⟨more, hbefore, hmore⟩ | ⟨more, hbefore, hmore⟩
    · cases more with
      | nil =>
        rw [List.nil_append, List.cons.injEq, Crossing.gave.injEq] at hmore
        refine ⟨[], t, turns, rfl, hmore.1.symm, ?_⟩
        rw [hbefore, List.append_nil]
        rfl
      | cons x more =>
        rw [List.cons_append, List.cons.injEq] at hmore
        obtain ⟨done, t', later, rfl, hline, hmore'⟩ := ih hmore.2
        refine ⟨t :: done, t', later, rfl, hline, ?_⟩
        rw [hbefore, ← hmore.1, hmore', List.flatMap_cons, Turn.crossings]
        simp
    · cases more with
      | nil =>
        rw [List.nil_append, List.cons.injEq, Crossing.gave.injEq] at hmore
        refine ⟨[], t, turns, rfl, hmore.1, ?_⟩
        rw [hbefore, List.append_nil]
        rfl
      | cons x more =>
        rw [List.cons_append, List.cons.injEq] at hmore
        rw [hbefore, ← hmore.1] at hsent
        exact absurd (List.mem_append_right before List.mem_cons_self) hsent

end Conversation

/-! ### The pairing -/

/-- Requests and answers are in step: what a tapped usage shows of a process with a framing and the name of
a runtime, whose peer had an output at the start. -/
structure Usage.Paired (framing : Framing) (runtime : String) (output : List UInt8)
    (u : Usage (Tapped (Streams ω))) : Prop where
  /-- The bytes that were taken are whole wires in order.  Behind them stands at most a part of one more,
  which then was the last request that the process was alive for. -/
  taken : ∃ whole part,
    Crossing.taken u.crossings = (u.requests.take whole).flatMap framing.wire ++ part ∧
    (whole = u.requests.length ∧ part = [] ∨
      ∃ request, u.requests.drop whole = [request] ∧ part <+: framing.wire request ∧
        part ≠ framing.wire request ∧ u.process.isAlive = false)
  /-- A line is read right behind a flush.  Before the line with number `i` exactly the wires of the first
  `i + 1` requests have been taken, and it is the line with that number of the output. -/
  given : ∀ before line after, u.crossings = before ++ .gave line :: after →
    before.getLast? = some .flushed ∧ (Crossing.given before).length < u.requests.length ∧
    Crossing.taken before = (u.requests.take ((Crossing.given before).length + 1)).flatMap framing.wire ∧
    line = Text.lineOf output (Crossing.given before).length
  /-- The line with number `i` answers the request with number `i`; a request without a line was the last
  one, and failed to be sent: the peer refused something, and what is said of that is the last that crossed. -/
  answered : ∀ i entry, u.issued[i]? = some entry →
    (i < (Crossing.given u.crossings).length →
      entry.result = entry.question.answerTo runtime (Text.lineOf output i)) ∧
    ((Crossing.given u.crossings).length ≤ i →
      i + 1 = u.issued.length ∧ u.process.isAlive = false ∧
        ∃ reason, entry.result = .error (.desync (.writeFailed reason)) ∧
          u.crossings.getLast? = some (.refused reason))
  /-- Nothing crosses behind a refusal, and the last request is without a line then. -/
  refused : ∀ before reason after, u.crossings = before ++ .refused reason :: after →
    after = [] ∧ (Crossing.given u.crossings).length + 1 = u.issued.length

namespace Conversation.Explains

variable {framing : Framing} {runtime : String} {output : List UInt8} {c : Conversation}
  {u : Usage (Streams ω)} (h : Explains framing runtime output c u)

include h

omit [Sink ω] in
theorem requests_eq : u.requests =
    c.turns.map (·.entry.question.request) ++ c.tear.toList.map (·.entry.question.request) := by
  rw [Usage.requests, h.issued, entries, List.map_append, List.map_map, List.map_map]
  rfl

theorem taken : ∃ whole part,
    Crossing.taken c.crossings = (u.requests.take whole).flatMap framing.wire ++ part ∧
    (whole = u.requests.length ∧ part = [] ∨
      ∃ request, u.requests.drop whole = [request] ∧ part <+: framing.wire request ∧
        part ≠ framing.wire request ∧ u.process.isAlive = false) := by
  have hrequests := h.requests_eq
  rw [crossings, taken_append, taken_turns h.turns]
  cases ht : c.tear with
  | none =>
    rw [ht, Option.toList_none, List.map_nil, List.append_nil] at hrequests
    refine ⟨u.requests.length, [], ?_, Or.inl ⟨rfl, rfl⟩⟩
    rw [List.take_length, hrequests]
    rfl
  | some t =>
    obtain ⟨htear, husable⟩ := h.tear t ht
    have htaken : Crossing.taken ((some t).toList.flatMap Tear.crossings) = t.pieces.flatten := by
      rw [Option.toList_some, List.flatMap_singleton, Tear.crossings, taken_append, taken_pieces]
      simp [Crossing.taken]
    rw [ht, Option.toList_some, List.map_singleton] at hrequests
    rw [htaken]
    by_cases hwhole : t.pieces.flatten = framing.wire t.entry.question.request
    · refine ⟨u.requests.length, [], ?_, Or.inl ⟨rfl, rfl⟩⟩
      rw [List.take_length, hrequests, List.flatMap_append, List.flatMap_singleton, hwhole, List.append_nil]
    · have hlen : (c.turns.map (·.entry.question.request)).length = c.turns.length := List.length_map _
      refine ⟨c.turns.length, t.pieces.flatten, ?_, Or.inr ⟨t.entry.question.request, ?_, htear.part, hwhole, ?_⟩⟩
      · rw [hrequests, ← hlen, List.take_left]
      · rw [hrequests, ← hlen, List.drop_left]
      · rw [isAlive_streams]
        exact husable

omit [Sink ω] in
theorem given {before after : List Crossing} {line : List UInt8}
    (hline : c.crossings = before ++ .gave line :: after) :
    before.getLast? = some .flushed ∧ (Crossing.given before).length < u.requests.length ∧
    Crossing.taken before = (u.requests.take ((Crossing.given before).length + 1)).flatMap framing.wire ∧
    line = Text.lineOf output (Crossing.given before).length := by
  have hrest : ∀ line, .gave line ∉ c.tear.toList.flatMap Tear.crossings := by simp [Tear.crossings]
  obtain ⟨done, t, later, hturns, rfl, rfl⟩ := exists_turn hrest hline
  have hgiven : (Crossing.given (done.flatMap Turn.crossings ++ (t.pieces.map .took ++ [.flushed]))).length =
      done.length := by
    rw [given_append, given_turns, given_append, given_pieces, List.nil_append, List.length_append,
      List.length_map]
    rfl
  have hrequests : u.requests = done.map (·.entry.question.request) ++ t.entry.question.request ::
      (later.map (·.entry.question.request) ++ c.tear.toList.map (·.entry.question.request)) := by
    rw [h.requests_eq, hturns, List.map_append, List.map_cons, List.append_assoc, List.cons_append]
  have horderly := h.turns
  rw [hturns] at horderly
  refine ⟨by simp, ?_, ?_, ?_⟩
  · rw [hgiven, hrequests, List.length_append, List.length_map, List.length_cons]
    omega
  · have hwires := taken_turns fun t' ht' => horderly t' (List.mem_append_left _ ht')
    have hlast := (horderly t (List.mem_append_right done List.mem_cons_self)).wire
    have htake : u.requests.take (done.length + 1) =
        done.map (·.entry.question.request) ++ [t.entry.question.request] := by
      rw [hrequests, List.take_append, List.length_map, List.take_of_length_le (by simp)]
      simp
    rw [hgiven, htake, List.flatMap_append, List.flatMap_singleton, taken_append, hwires, taken_append,
      taken_pieces, hlast]
    simp [Crossing.taken]
  · have hlines := congrArg (fun lines => lines[done.length]?) h.lines
    simpa [hgiven, hturns] using hlines

theorem answered {i : Nat} {entry : Entry} (hentry : u.issued[i]? = some entry) :
    (i < (Crossing.given c.crossings).length →
      entry.result = entry.question.answerTo runtime (Text.lineOf output i)) ∧
    ((Crossing.given c.crossings).length ≤ i →
      i + 1 = u.issued.length ∧ u.process.isAlive = false ∧
        ∃ reason, entry.result = .error (.desync (.writeFailed reason)) ∧
          c.crossings.getLast? = some (.refused reason)) := by
  rw [given_crossings, List.length_map]
  rw [h.issued, entries] at hentry ⊢
  constructor
  · intro hi
    rw [List.getElem?_append_left (by rwa [List.length_map]), List.getElem?_map,
      Option.map_eq_some_iff] at hentry
    obtain ⟨t, ht, rfl⟩ := hentry
    have hlines := congrArg (fun lines => lines[i]?) h.lines
    simp only [List.getElem?_map, ht, List.getElem?_range hi, Option.map_some, Option.some.injEq] at hlines
    rw [(h.turns t (List.mem_of_getElem? ht)).result, hlines]
  · intro hi
    rw [List.getElem?_append_right (by rwa [List.length_map]), List.length_map] at hentry
    cases ht : c.tear with
    | none =>
      rw [ht] at hentry
      simp at hentry
    | some t =>
      rw [ht, Option.toList_some, List.map_singleton, List.getElem?_singleton] at hentry
      split at hentry
      · next hzero =>
        cases hentry
        obtain ⟨htear, husable⟩ := h.tear t ht
        refine ⟨?_, ?_, t.reason, htear.result, ?_⟩
        · simp
          omega
        · rw [isAlive_streams]
          exact husable
        · rw [crossings, ht]
          simp [Tear.crossings]
      · cases hentry

omit [Sink ω] in
/-- Only a tear has a refusal, as the last that crosses in it. -/
theorem refused {before after : List Crossing} {reason : String}
    (hrefused : c.crossings = before ++ .refused reason :: after) :
    after = [] ∧ (Crossing.given c.crossings).length + 1 = u.issued.length := by
  have hturns : ∀ reason, .refused reason ∉ c.turns.flatMap Turn.crossings := by simp [Turn.crossings]
  rw [given_crossings, List.length_map, h.issued, entries, List.length_append, List.length_map]
  cases ht : c.tear with
  | none =>
    rw [crossings, ht, Option.toList_none, List.flatMap_nil, List.append_nil] at hrefused
    exact absurd (hrefused ▸ List.mem_append_right before List.mem_cons_self) (hturns reason)
  | some t =>
    refine ⟨?_, rfl⟩
    rw [crossings, ht, Option.toList_some, List.flatMap_singleton, Tear.crossings, ← List.append_assoc] at hrefused
    have hpieces : .refused reason ∉ c.turns.flatMap Turn.crossings ++ t.pieces.map .took := by
      simp [Turn.crossings]
    rcases List.append_eq_append_iff.1 hrefused with ⟨more, hbefore, hmore⟩ | ⟨more, hbefore, hmore⟩
    · cases more with
      | nil => exact (List.cons.inj hmore).2.symm
      | cons x more => simp at hmore
    · cases more with
      | nil => exact (List.cons.inj hmore).2
      | cons x more =>
        rw [hbefore, (List.cons.inj hmore).1] at hpieces
        exact absurd (List.mem_append_right before List.mem_cons_self) hpieces

theorem paired_tapped : (u.tapped c.crossings).Paired framing runtime output where
  taken := h.taken
  given := fun _ _ _ => h.given
  answered := fun _ _ => h.answered
  refused := fun _ _ _ => h.refused

end Conversation.Explains

/-! ### Silence -/

namespace Usage

section

variable {π : Type} [Peer π] {u : Usage (Tapped π)}

theorem step_of_dead (h : u.process.isAlive = false) (operation : Operation) :
    (u.step operation).crossings = u.crossings ∧ (u.step operation).process.isAlive = false := by
  have hclose : ∀ t : Transport (Tapped π), t.close.peer.crossings = t.peer.crossings := by
    intro t
    unfold Transport.close
    split <;> rfl
  cases operation with
  | ask question =>
    have hprocess : (u.step (.ask question)).process = u.process.markDead := by
      show (question.ask u.process).2 = _
      rw [Question.ask_of_dead h]
    rw [crossings, hprocess]
    exact ⟨rfl, rfl⟩
  | finish ending =>
    cases ending with
    | markDead => exact ⟨rfl, rfl⟩
    | sever => exact ⟨rfl, rfl⟩
    | close => exact ⟨hclose _, rfl⟩
    | kill => exact ⟨hclose _, rfl⟩

/-- Nothing crosses any more once a process is dead. -/
theorem run_of_dead (h : u.process.isAlive = false) (operations : List Operation) :
    (u.run operations).crossings = u.crossings := by
  induction operations generalizing u with
  | nil => rfl
  | cons operation operations ih =>
    obtain ⟨hcrossings, hdead⟩ := step_of_dead h operation
    exact (ih hdead).trans hcrossings

end

/-- **Requests and answers stay in step.**  A process over a sink of any behaviour and an output of any bytes
is used by any operations.  A tap changes nothing of what comes of them; it shows whole wires, each flushed
before its line is read, at most one torn wire behind them, torn by a refusal of the sink, and each request
answered by its own line.  When the process is dead nothing crosses any more. -/
theorem paired (runtime : String) (s : Streams ω) (framing : Framing) (operations more : List Operation) :
    let u : Usage (Streams ω) := { process := EngineProcess.ofPeer runtime s framing }
    let tapped := (u.tapped []).run operations
    (∃ crossings, tapped = (u.run operations).tapped crossings) ∧
    tapped.Paired framing runtime s.output ∧
    (tapped.process.isAlive = false → (tapped.run more).crossings = tapped.crossings) := by
  intro u tapped
  have hstart : Conversation.Explains framing runtime s.output {} u := .start framing runtime s
  obtain ⟨c, htap, hc⟩ := hstart.run operations
  have htapped : tapped = (u.run operations).tapped c.crossings := htap
  refine ⟨⟨c.crossings, htapped⟩, ?_, ?_⟩
  · rw [htapped]
    exact hc.paired_tapped
  · intro hdead
    exact run_of_dead hdead more

end Usage

end EnginePipe.Channel
