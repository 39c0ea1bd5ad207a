import EnginePipe.Channel.Tapped
import EnginePipe.Proofs.Frame.Atoms

/-!
# What crosses in one operation

A tap on the peer of a process changes nothing of what the process does, and it shows what crosses: the
bytes of a wire in pieces, a flush if the pieces are the whole wire, and one line behind the flush; or, where
the peer refuses anything, the refusal as the last.

* `deliver_tapped`, `Transport.roundTrip_tapped`: what crosses when a request is sent and answered.
* `Question.ask_eq`: a question is an exchange, and what its line makes of it.
* `Question.ask_tapped`, `Ending.apply_tapped`: **what crosses in an operation**.
-/

namespace EnginePipe.Channel

/-! ### Writing -/

section

variable {π : Type} [Peer π]

theorem write_tapped (data : List UInt8) (peer : π) (crossings : List Crossing) :
    Sink.write data (⟨peer, crossings⟩ : Tapped π) = ((Sink.write data peer).1,
      ⟨(Sink.write data peer).2, crossings ++ Tapped.ofWrite data (Sink.write data peer).1⟩) := rfl

theorem flush_tapped (peer : π) (crossings : List Crossing) :
    Sink.flush (⟨peer, crossings⟩ : Tapped π) = ((Sink.flush peer).1,
      ⟨(Sink.flush peer).2, crossings ++ Tapped.ofFlush (Sink.flush peer).1⟩) := rfl

/-- What is left on the tap where writing stops: nothing if all was taken, else the refusal. -/
def Tapped.ofStop : Except String Unit → List Crossing
  | .ok () => []
  | .error reason => [.refused reason]

/-- A peer takes the bytes in pieces from the front, and all of them exactly if writing succeeds; else it refuses
what is left. -/
theorem writeAll_tapped (data : List UInt8) (peer : π) (crossings : List Crossing) :
    ∃ pieces : List (List UInt8),
      writeAll data (⟨peer, crossings⟩ : Tapped π) = ((writeAll data peer).1,
        ⟨(writeAll data peer).2, crossings ++ (pieces.map .took ++ Tapped.ofStop (writeAll data peer).1)⟩) ∧
      pieces.flatten <+: data ∧ ((writeAll data peer).1 = .ok () ↔ pieces.flatten = data) := by
  induction hn : data.length using Nat.strongRecOn generalizing data peer crossings with
  | ind n ih =>
    cases data with
    | nil =>
      refine ⟨[], ?_, List.prefix_rfl, ?_⟩
      · simp [Tapped.ofStop]
      · simp
    | cons b rest =>
      rw [List.length_cons] at hn
      rw [writeAll, writeAll, write_tapped]
      cases hw : Sink.write (b :: rest) peer with
      | mk result peer' =>
        cases result with
        | error reason =>
          refine ⟨[], by simp [Tapped.ofWrite, Tapped.ofStop], List.nil_prefix, by simp⟩
        | ok taken =>
          cases taken with
          | zero => exact ⟨[], by simp [Tapped.ofWrite, Tapped.ofStop], List.nil_prefix, by simp⟩
          | succ taken =>
            obtain ⟨pieces, htap, hprefix, hiff⟩ := ih (rest.drop taken).length
              (by rw [List.length_drop]; omega) (rest.drop taken) peer'
              (crossings ++ [.took (b :: rest.take taken)]) rfl
            have hsplit : b :: rest = (b :: rest.take taken) ++ rest.drop taken := by
              rw [List.cons_append, List.take_append_drop]
            refine ⟨(b :: rest.take taken) :: pieces, ?_, ?_, ?_⟩
            · simp only [Tapped.ofWrite, List.take_succ_cons, htap, List.map_cons, List.append_assoc,
                List.cons_append, List.nil_append]
            · rw [List.flatten_cons, hsplit]
              exact List.prefix_append_right_inj _ |>.2 hprefix
            · rw [List.flatten_cons]
              dsimp only
              rw [hiff, hsplit, List.append_cancel_left_eq]

theorem deliver_tapped (data : List UInt8) (peer : π) (crossings : List Crossing) :
    ∃ pieces : List (List UInt8),
      deliver data (⟨peer, crossings⟩ : Tapped π) = ((deliver data peer).1,
        ⟨(deliver data peer).2, crossings ++ (pieces.map .took ++ Tapped.ofFlush (deliver data peer).1)⟩) ∧
      pieces.flatten <+: data ∧ ((deliver data peer).1 = .ok () → pieces.flatten = data) := by
  obtain ⟨pieces, htap, hprefix, hiff⟩ := writeAll_tapped data peer crossings
  refine ⟨pieces, ?_, hprefix, ?_⟩
  · unfold deliver
    rw [htap]
    cases hw : writeAll data peer with
    | mk result peer' =>
      cases result with
      | error reason => simp [Tapped.ofStop, Tapped.ofFlush]
      | ok _ => simp [Tapped.ofStop, flush_tapped]
  · intro h
    refine hiff.1 ?_
    unfold deliver at h
    split at h
    · next hw => rw [hw]
    · cases h

/-! ### Sending and receiving -/

namespace Transport

theorem send_eq {t : Transport π} (ht : t.isClosed = false) (request : Request) :
    send request t = ((deliver (t.framing.wire request) t.peer).1.mapError fun reason =>
      .desync (.writeFailed reason), { t with peer := (deliver (t.framing.wire request) t.peer).2 }) := by
  obtain ⟨text, htext, hwire⟩ := t.framing.exists_encode_eq request
  unfold send
  rw [htext, hwire]
  simp only [ht, Bool.false_eq_true, if_false]
  cases hd : deliver (Text.bytes text) t.peer with
  | mk result peer => cases result <;> rfl

theorem receive_eq {t : Transport π} (ht : t.isClosed = false) :
    receive t = (Question.textOf (Peer.readLine t.peer).1, { t with peer := (Peer.readLine t.peer).2 }) := by
  unfold receive Question.textOf
  simp only [ht, Bool.false_eq_true, if_false]
  cases hr : Peer.readLine t.peer with
  | mk line peer =>
    cases line with
    | nil => rfl
    | cons b line =>
      dsimp only [List.isEmpty_cons]
      rw [if_neg Bool.false_ne_true]
      cases Text.ofBytes? (b :: line) <;> rfl

/-- What a request comes to whose wire was taken and flushed: the line behind it. -/
theorem roundTrip_of_delivered {t : Transport π} (ht : t.isClosed = false) {request : Request} {peer : π}
    (hd : deliver (t.framing.wire request) t.peer = (.ok (), peer)) :
    roundTrip request t =
      (Question.textOf (Peer.readLine peer).1, { t with peer := (Peer.readLine peer).2 }) := by
  have hsend := send_eq ht request
  rw [hd] at hsend
  rw [roundTrip, Attempt.bind_apply_of_ok hsend]
  exact receive_eq (t := { t with peer }) ht

theorem roundTrip_of_failed {t : Transport π} (ht : t.isClosed = false) {request : Request} {peer : π}
    {reason : String} (hd : deliver (t.framing.wire request) t.peer = (.error reason, peer)) :
    roundTrip request t = (.error (.desync (.writeFailed reason)), { t with peer }) := by
  have hsend := send_eq ht request
  rw [hd] at hsend
  exact roundTrip_of_send_error hsend

/-- **What crosses for one request**: its wire in pieces, a flush and a line, or some of the wire and a refusal. -/
theorem roundTrip_tapped {t : Transport π} (ht : t.isClosed = false) (request : Request)
    (crossings : List Crossing) :
    (∃ (pieces : List (List UInt8)) (peer : π), pieces.flatten = t.framing.wire request ∧
      deliver (t.framing.wire request) t.peer = (.ok (), peer) ∧
      roundTrip request (t.tapped crossings) = ((roundTrip request t).1, (roundTrip request t).2.tapped
        (crossings ++ (pieces.map .took ++ [.flushed, .gave (Peer.readLine peer).1])))) ∨
    ∃ (pieces : List (List UInt8)) (reason : String) (peer : π),
      pieces.flatten <+: t.framing.wire request ∧
      deliver (t.framing.wire request) t.peer = (.error reason, peer) ∧
      roundTrip request (t.tapped crossings) = ((roundTrip request t).1, (roundTrip request t).2.tapped
        (crossings ++ (pieces.map .took ++ [.refused reason]))) := by
  obtain ⟨pieces, htap, hprefix, hwhole⟩ := deliver_tapped (t.framing.wire request) t.peer crossings
  have ht' : (t.tapped crossings).isClosed = false := ht
  cases hd : deliver (t.framing.wire request) t.peer with
  | mk result peer =>
    rw [hd] at htap hwhole
    cases result with
    | ok _ =>
      refine Or.inl ⟨pieces, peer, hwhole rfl, rfl, ?_⟩
      rw [roundTrip_of_delivered ht hd, roundTrip_of_delivered ht' htap]
      simp only [tapped, Tapped.ofFlush, Peer.readLine, List.append_assoc, List.singleton_append]
    | error reason =>
      refine Or.inr ⟨pieces, reason, peer, hprefix, rfl, ?_⟩
      rw [roundTrip_of_failed ht hd, roundTrip_of_failed ht' htap]
      simp only [tapped, Tapped.ofFlush]

end Transport

/-! ### Exchanges -/

namespace EngineProcess

theorem exchange_of_alive {p : EngineProcess π} (h : p.isAlive) (request : Request) :
    exchange request p = ((Transport.roundTrip request p.transport).1,
      { p with
        transport := (Transport.roundTrip request p.transport).2
        usable := (Transport.roundTrip request p.transport).1.isOk }) := by
  have husable : p.usable = true := by
    rw [isAlive, Bool.and_eq_true] at h
    exact h.1
  rw [exchange, if_pos h]
  obtain ⟨runtime, transport, usable⟩ := p
  cases Transport.roundTrip request transport with
  | mk read t =>
    cases read with
    | error e => rfl
    | ok line => exact congrArg (fun u => (Except.ok line, EngineProcess.mk runtime t u)) husable

theorem exchange_tapped {p : EngineProcess π} (ha : p.isAlive) {request : Request}
    {crossings crossings' : List Crossing}
    (h : Transport.roundTrip request (p.transport.tapped crossings) =
      ((Transport.roundTrip request p.transport).1,
        (Transport.roundTrip request p.transport).2.tapped crossings')) :
    exchange request (p.tapped crossings) =
      ((exchange request p).1, (exchange request p).2.tapped crossings') := by
  have ha' : (p.tapped crossings).isAlive := ha
  have htransport : (p.tapped crossings).transport = p.transport.tapped crossings := rfl
  rw [exchange_of_alive ha, exchange_of_alive ha', htransport, h]
  rfl

theorem exchange_tapped_of_dead {p : EngineProcess π} (hd : p.isAlive = false) (request : Request)
    (crossings : List Crossing) :
    exchange request (p.tapped crossings) =
      ((exchange request p).1, (exchange request p).2.tapped crossings) := by
  have hd' : (p.tapped crossings).isAlive = false := hd
  rw [exchange_of_dead hd, exchange_of_dead hd']
  rfl

end EngineProcess

/-! ### Questions -/

namespace Question

/-- Whether a line leaves the process that it was read from in use. -/
def spares (line : Option String) : Question → Bool
  | .exchange _ => true
  | .teardown _ => line.isSome
  | .evaluate _ marker =>
    match Reply.ofLine line marker with
    | .ok .absent => false
    | .ok _ => true
    | .error _ => false

/-- The process after what was read for a question. -/
def leave (read : Except Error (Option String)) (question : Question) (p : EngineProcess π) :
    EngineProcess π :=
  match read with
  | .error _ => p
  | .ok line => if question.spares line then p else p.markDead

omit [Peer π] in
@[simp] theorem transport_leave (read : Except Error (Option String)) (question : Question)
    (p : EngineProcess π) : (question.leave read p).transport = p.transport := by
  unfold leave
  split
  · rfl
  · split <;> rfl

omit [Peer π] in
@[simp] theorem runtime_leave (read : Except Error (Option String)) (question : Question)
    (p : EngineProcess π) : (question.leave read p).runtime = p.runtime := by
  unfold leave
  split
  · rfl
  · split <;> rfl

/-- **A question is an exchange, and what its line makes of it.** -/
theorem ask_eq (question : Question) (p : EngineProcess π) :
    question.ask p =
      (question.conclude (EngineProcess.exchange question.request p).2.runtime
        (EngineProcess.exchange question.request p).1,
      question.leave (EngineProcess.exchange question.request p).1
        (EngineProcess.exchange question.request p).2) := by
  cases question with
  | exchange request =>
    simp only [ask, Question.request, Attempt.bind_apply]
    cases he : EngineProcess.exchange request p with
    | mk read q => cases read <;> rfl
  | teardown context =>
    simp only [ask, Question.request, EngineProcess.teardown, Attempt.bind_apply]
    cases he : EngineProcess.exchange (.teardown context) p with
    | mk read q =>
      cases read with
      | error e => rfl
      | ok line => cases line <;> rfl
  | evaluate request marker =>
    simp only [ask, Question.request, EngineProcess.evaluate, Attempt.bind_apply]
    cases he : EngineProcess.exchange request p with
    | mk read q =>
      cases read with
      | error e => rfl
      | ok line =>
        obtain ⟨reply, hr⟩ : ∃ reply, Reply.ofLine line marker = reply := ⟨_, rfl⟩
        simp only [conclude, leave, spares, Except.bind, hr]
        cases reply with
        | error fault => rfl
        | ok reply => cases reply <;> rfl

omit [Peer π] in
theorem leave_tapped (read : Except Error (Option String)) (question : Question) (p : EngineProcess π)
    (crossings : List Crossing) :
    question.leave read (p.tapped crossings) = (question.leave read p).tapped crossings := by
  unfold leave
  cases read with
  | error e => rfl
  | ok line =>
    dsimp only
    split <;> rfl

theorem ask_tapped {question : Question} {p : EngineProcess π} {crossings crossings' : List Crossing}
    (h : EngineProcess.exchange question.request (p.tapped crossings) =
      ((EngineProcess.exchange question.request p).1,
        (EngineProcess.exchange question.request p).2.tapped crossings')) :
    question.ask (p.tapped crossings) = ((question.ask p).1, (question.ask p).2.tapped crossings') := by
  rw [ask_eq, ask_eq, h, leave_tapped]
  rfl

end Question

/-! ### Endings -/

theorem Ending.apply_tapped (ending : Ending) (p : EngineProcess π) (crossings : List Crossing) :
    ending.apply (p.tapped crossings) = (ending.apply p).tapped crossings := by
  have hclose : ∀ t : Transport π, (t.tapped crossings).close = t.close.tapped crossings := by
    intro t
    unfold Transport.close
    by_cases ht : t.isClosed
    · rw [if_pos ht, if_pos (show (t.tapped crossings).isClosed from ht)]
    · rw [if_neg ht, if_neg (show ¬ (t.tapped crossings).isClosed from ht)]
      rfl
  cases ending with
  | markDead => rfl
  | sever => rfl
  | close =>
    show EngineProcess.close _ = (EngineProcess.close p).tapped _
    unfold EngineProcess.close
    rw [show (p.tapped crossings).transport = p.transport.tapped crossings from rfl, hclose]
    rfl
  | kill =>
    show EngineProcess.kill _ = (EngineProcess.kill p).tapped _
    unfold EngineProcess.kill
    rw [show (p.tapped crossings).sever = p.sever.tapped crossings from rfl,
      show (p.sever.tapped crossings).transport = p.sever.transport.tapped crossings from rfl, hclose]
    rfl

end

end EnginePipe.Channel
