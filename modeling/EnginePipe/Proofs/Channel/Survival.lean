import EnginePipe.Channel.ScriptedSink
import EnginePipe.Proofs.Channel.Lifelines
import EnginePipe.Proofs.Json.Grammar.Texts

/-!
# Which answers a process survives

Where an answer is expected there is an array, or one of four other things.  What becomes of the process
is decided in four places, one after the other: when the request is sent, when a line is read, when the line
is decoded, and by the operation that asked.  So a question is followed through them for each thing that there
may be to read.

* `Reads`: what there is to read, said without any order of reading.
* `Question.outlives_iff`, `Question.isAlive_ask_iff`: a process that was asked stays alive if its request was
  sent and what was read is an answer, or is taken for one.
* `EngineProcess.Connected.evaluate_settles`: **an evaluation leaves the process alive exactly if there is an
  answer**.
* `EngineProcess.Connected.survives_question`: **which other lines a process survives**, by operation.
-/

namespace EnginePipe

open Json (Value IsPadded IsValue)

/-! ### What there is to read -/

namespace Text

theorem ofBytes?_eq_some_iff {data : List UInt8} {s : String} : ofBytes? data = some s ↔ bytes s = data := by
  constructor
  · intro h
    unfold ofBytes? String.fromUTF8? at h
    split at h
    · cases h
      simp [bytes, String.toUTF8, String.fromUTF8]
    · cases h
  · rintro rfl
    exact ofBytes?_bytes s

theorem bytes_injective {s t : String} (h : bytes s = bytes t) : s = t := by
  have hs := ofBytes?_bytes s
  rw [h, ofBytes?_bytes] at hs
  exact (Option.some.inj hs).symm

end Text

namespace Json

theorem readArray?_eq_some_iff {text : String} {items : List Value} :
    readArray? text = some items ↔ IsPadded (IsValue maxNesting) text.toList (.array items) := by
  rw [← read?_eq_some_iff, readArray?]
  constructor
  · intro h
    split at h
    · next hread =>
      cases h
      exact hread
    · cases h
  · intro h
    rw [h]

end Json

namespace Channel

/-- What there is where an answer is expected. -/
inductive Reading where
  /-- The output has ended. -/
  | ended
  /-- Bytes that hold no text. -/
  | garbled
  | blank
  /-- A text that holds no array. -/
  | foreign
  | array (items : List Value)

/-- What there is on a line, blanks around it apart; no bytes are the end of the output. -/
inductive Reads : List UInt8 → Reading → Prop
  | ended : Reads [] .ended
  | garbled {line : List UInt8} (hne : line ≠ []) (h : ∀ text, Text.bytes text ≠ line) : Reads line .garbled
  | blank {text : String} (hne : text ≠ "") (h : ∀ c ∈ text.toList, Text.isBlank c) :
      Reads (Text.bytes text) .blank
  | foreign {text : String} (hc : ∃ c ∈ text.toList, ¬ Text.isBlank c)
      (h : ∀ items, ¬ IsPadded (IsValue Json.maxNesting) (Text.trim text.toList) (.array items)) :
      Reads (Text.bytes text) .foreign
  | array {text : String} {items : List Value}
      (h : IsPadded (IsValue Json.maxNesting) (Text.trim text.toList) (.array items)) :
      Reads (Text.bytes text) (.array items)

theorem ne_nil_of_mem_bytes {text : String} {c : Char} (hc : c ∈ text.toList) : text ≠ "" := by
  rintro rfl
  cases hc

/-- There is always something of the kind. -/
theorem exists_reads (line : List UInt8) : ∃ r, Reads line r := by
  by_cases hne : line = []
  · subst hne
    exact ⟨.ended, .ended⟩
  cases ht : Text.ofBytes? line with
  | none =>
    refine ⟨.garbled, .garbled hne ?_⟩
    rintro text rfl
    rw [Text.ofBytes?_bytes] at ht
    cases ht
  | some text =>
    obtain rfl := Text.ofBytes?_eq_some_iff.1 ht
    by_cases hc : ∃ c ∈ text.toList, ¬ Text.isBlank c
    · by_cases ha : ∃ items, IsPadded (IsValue Json.maxNesting) (Text.trim text.toList) (.array items)
      · obtain ⟨items, h⟩ := ha
        exact ⟨.array items, .array h⟩
      · exact ⟨.foreign, .foreign hc (not_exists.1 ha)⟩
    · refine ⟨.blank, .blank ?_ (by simpa using hc)⟩
      rintro rfl
      exact hne rfl

end Channel

/-! ### Reading and decoding -/

namespace Response

theorem decode_of_blank {text : String} (h : ∀ c ∈ text.toList, Text.isBlank c) : decode text = .ok none := by
  unfold decode
  rw [Text.trim_eq_nil_iff.2 h]
  rfl

variable {text : String} (hc : ∃ c ∈ text.toList, ¬ Text.isBlank c)

include hc

theorem decode_of_not_blank : decode text =
    match Json.readArray? (String.ofList (Text.trim text.toList)) with
    | some items => .ok (some (ofItems items))
    | none => .error (.ofArray (String.ofList (Text.trim text.toList))) := by
  obtain ⟨c, hmem, hblank⟩ := hc
  have hne : (Text.trim text.toList).isEmpty = false := by
    rw [← Bool.not_eq_true, List.isEmpty_iff, Text.trim_eq_nil_iff]
    intro h
    exact hblank (h c hmem)
  cases hread : Json.readArray? (String.ofList (Text.trim text.toList)) with
  | none => simp [decode, hne, hread]
  | some items => simp [decode, hne, hread]

theorem decode_of_foreign
    (h : ∀ items, ¬ IsPadded (IsValue Json.maxNesting) (Text.trim text.toList) (.array items)) :
    ∃ fault, decode text = .error fault := by
  rw [decode_of_not_blank hc]
  cases hr : Json.readArray? (String.ofList (Text.trim text.toList)) with
  | none => exact ⟨_, rfl⟩
  | some items =>
    rw [Json.readArray?_eq_some_iff, String.toList_ofList] at hr
    exact absurd hr (h items)

omit hc in
theorem decode_of_array {items : List Value}
    (h : IsPadded (IsValue Json.maxNesting) (Text.trim text.toList) (.array items)) :
    decode text = .ok (some (ofItems items)) := by
  have hread : Json.readArray? (String.ofList (Text.trim text.toList)) = some items := by
    rw [Json.readArray?_eq_some_iff, String.toList_ofList]
    exact h
  by_cases hc : ∃ c ∈ text.toList, ¬ Text.isBlank c
  · rw [decode_of_not_blank hc, hread]
  · have htrim : Text.trim text.toList = [] := Text.trim_eq_nil_iff.2 (by simpa using hc)
    rw [htrim] at hread
    cases hread

omit hc in
/-- A response is a reply: engines that answer are not absent. -/
theorem classify_ne_absent (r : Response) (marker : String) : r.classify marker ≠ .absent := by
  unfold classify
  split
  · simp
  · split <;> simp

end Response

namespace Channel

/-! ### What a question makes of it -/

namespace Question

/-- What a question takes for an answer though it is none. -/
def Overlooks : Question → Reading → Prop
  | .evaluate _ _, _ => False
  | .teardown _, r => r = .blank ∨ r = .foreign
  | .exchange _, r => r = .ended ∨ r = .blank ∨ r = .foreign

theorem textOf_bytes {text : String} (hne : text ≠ "") : textOf (Text.bytes text) = .ok (some text) := by
  have hbytes : (Text.bytes text).isEmpty = false := by
    rw [← Bool.not_eq_true, List.isEmpty_iff]
    exact fun h => hne (Text.bytes_injective h)
  unfold textOf
  rw [hbytes, Text.ofBytes?_bytes]
  rfl

theorem textOf_of_garbled {line : List UInt8} (hne : line ≠ []) (h : ∀ text, Text.bytes text ≠ line) :
    textOf line = .error (.desync (.readFailed Text.invalidText)) := by
  have hline : line.isEmpty = false := by
    rwa [← Bool.not_eq_true, List.isEmpty_iff]
  have hnone : Text.ofBytes? line = none := by
    rw [Option.eq_none_iff_forall_ne_some]
    intro text ht
    exact h text (Text.ofBytes?_eq_some_iff.1 ht)
  unfold textOf
  rw [hline, hnone]
  rfl

/-- What a line is read as, with the reply on it if it can be read. -/
inductive Decodes : Reading → Except Error (Option String) → Prop
  | ended : Decodes .ended (.ok none)
  | garbled : Decodes .garbled (.error (.desync (.readFailed Text.invalidText)))
  | blank {text : String} (hreply : ∀ marker, Reply.ofLine (some text) marker = .ok .absent) :
    Decodes .blank (.ok (some text))
  | foreign {text : String} {fault : Json.Fault}
    (hreply : ∀ marker, Reply.ofLine (some text) marker = .error fault) : Decodes .foreign (.ok (some text))
  | array {text : String} {items : List Value}
    (hreply : ∀ marker, Reply.ofLine (some text) marker = .ok ((Response.ofItems items).classify marker)) :
    Decodes (.array items) (.ok (some text))

/-- Reading and decoding find what there is. -/
theorem decodes_textOf {line : List UInt8} {r : Reading} (h : Reads line r) : Decodes r (textOf line) := by
  cases h with
  | ended => exact .ended
  | garbled hne hline =>
    rw [textOf_of_garbled hne hline]
    exact .garbled
  | blank hne hblank =>
    rw [textOf_bytes hne]
    refine .blank fun marker => ?_
    rw [Reply.ofLine, Response.decode_of_blank hblank]
    rfl
  | foreign hc hforeign =>
    obtain ⟨fault, hfault⟩ := Response.decode_of_foreign hc hforeign
    obtain ⟨c, hmem, -⟩ := hc
    rw [textOf_bytes (ne_nil_of_mem_bytes hmem)]
    refine @Decodes.foreign _ fault fun marker => ?_
    rw [Reply.ofLine, hfault]
    rfl
  | @array text items harray =>
    have hne : text ≠ "" := by
      rintro rfl
      have hread : Json.readArray? "" = some items := Json.readArray?_eq_some_iff.2 harray
      cases hread
    rw [textOf_bytes hne]
    refine .array fun marker => ?_
    rw [Reply.ofLine, Response.decode_of_array harray]
    rfl

/-- Whether a line leaves the process that it was read from in use, if it can be read. -/
def outlives (line : List UInt8) (question : Question) : Bool :=
  match textOf line with
  | .error _ => false
  | .ok text => question.spares text

/-- **What a process survives**: an answer, and what the question takes for one. -/
theorem outlives_iff {line : List UInt8} {r : Reading} (h : Reads line r) (question : Question) :
    question.outlives line ↔ (∃ items, r = .array items) ∨ question.Overlooks r := by
  have hdecodes := decodes_textOf h
  unfold outlives
  generalize textOf line = read at hdecodes
  cases question with
  | evaluate request marker =>
    cases hdecodes with
    | ended => simp [spares, Overlooks, Reply.ofLine]
    | garbled => simp [Overlooks]
    | blank hreply => simp [spares, Overlooks, hreply]
    | foreign hreply => simp [spares, Overlooks, hreply]
    | @array text items hreply =>
      have hne := (Response.ofItems items).classify_ne_absent marker
      simp only [spares, hreply]
      cases hc : (Response.ofItems items).classify marker with
      | absent => exact absurd hc hne
      | _ => simp
  | _ => cases hdecodes <;> simp [spares, Overlooks]

/-- What a question takes for an answer, it reports as one. -/
theorem answerTo_of_overlooks {line : List UInt8} {r : Reading} (h : Reads line r) {question : Question}
    (ho : question.Overlooks r) (runtime : String) : ∃ answer, question.answerTo runtime line = .ok answer := by
  have hdecodes := decodes_textOf h
  unfold answerTo
  generalize textOf line = read at hdecodes
  cases question with
  | evaluate request marker => cases ho
  | teardown context =>
    cases hdecodes with
    | blank | foreign => exact ⟨_, rfl⟩
    | _ => simp [Overlooks] at ho
  | exchange request =>
    cases hdecodes with
    | ended | blank | foreign => exact ⟨_, rfl⟩
    | _ => simp [Overlooks] at ho

/-- What a process does not survive is reported as a desync. -/
theorem answerTo_of_not_outlives {line : List UInt8} {question : Question}
    (h : question.outlives line = false) (runtime : String) :
    ∃ cause, question.answerTo runtime line = .error (.desync cause) := by
  obtain ⟨r, hr⟩ := exists_reads line
  have hdecodes := decodes_textOf hr
  unfold outlives at h
  unfold answerTo
  generalize textOf line = read at h hdecodes
  cases question with
  | exchange request =>
    cases hdecodes with
    | garbled => exact ⟨_, rfl⟩
    | _ => cases h
  | teardown context =>
    cases hdecodes with
    | garbled | ended => exact ⟨_, rfl⟩
    | _ => cases h
  | evaluate request marker =>
    cases hdecodes with
    | garbled | ended => exact ⟨_, rfl⟩
    | blank hreply | foreign hreply =>
      simp only [conclude, Except.bind, hreply]
      exact ⟨_, rfl⟩
    | array hreply =>
      simp only [spares, hreply] at h
      split at h
      · next hc => exact absurd (Except.ok.inj hc) (Response.classify_ne_absent _ marker)
      · cases h
      · next hc => cases hc

end Question

/-! ### One question -/

/-- The whole of a wire was taken, and then it was flushed. -/
def Crossing.Sent (wire : List UInt8) (crossings : List Crossing) : Prop :=
  ∃ (pieces : List (List UInt8)) (rest : List Crossing),
    crossings = pieces.map .took ++ .flushed :: rest ∧ pieces.flatten = wire

variable {ω : Type} [Sink ω]

/-- What crosses when a process is asked. -/
def Question.crossings (question : Question) (p : EngineProcess (Streams ω)) : List Crossing :=
  (question.ask (p.tapped [])).2.transport.peer.crossings

/-- The line that answers the next request. -/
def EngineProcess.nextLine (p : EngineProcess (Streams ω)) : List UInt8 :=
  Text.lineOf p.transport.peer.output 0

namespace Question

variable {p : EngineProcess (Streams ω)}

theorem isAlive_leave (question : Question) (line : List UInt8) (runtime : String)
    (t : Transport (Streams ω)) :
    (question.leave (textOf line) ⟨runtime, t, (textOf line).isOk⟩).isAlive = question.outlives line := by
  rw [isAlive_streams]
  unfold leave outlives
  cases textOf line with
  | error e => rfl
  | ok text =>
    dsimp only
    split
    · next h => rw [h]; rfl
    · next h => rw [Bool.eq_false_iff.2 h]; rfl

/-- The flush is what tells a wire that was sent. -/
theorem not_sent_refused (wire : List UInt8) (pieces : List (List UInt8)) (reason : String) :
    ¬ Crossing.Sent wire (pieces.map .took ++ [.refused reason]) := by
  rintro ⟨pieces', rest, hsplit, -⟩
  have hmem : Crossing.flushed ∈ pieces.map Crossing.took ++ [.refused reason] := by
    rw [hsplit]
    exact List.mem_append_right _ List.mem_cons_self
  simp at hmem

/-- A question whose request is sent: the next line decides. -/
theorem ask_of_sent (ha : p.isAlive) (ho : p.transport.isClosed = false) {question : Question}
    {peer : Streams ω}
    (hd : deliver (p.transport.framing.wire question.request) p.transport.peer = (.ok (), peer)) :
    (question.ask p).1 = question.answerTo p.runtime p.nextLine ∧
      (question.ask p).2.isAlive = question.outlives p.nextLine := by
  have hline : (Peer.readLine peer).1 = p.nextLine := by
    have houtput := deliver_output (p.transport.framing.wire question.request) p.transport.peer
    rw [hd] at houtput
    show (Text.takeLine peer.output).1 = _
    rw [houtput, EngineProcess.nextLine, Text.lineOf_zero]
  rw [ask_of_delivered ha ho hd, hline]
  exact ⟨rfl, isAlive_leave question p.nextLine _ _⟩

/-- **A question that is asked**: its request is sent and the next line decides, or it is torn. -/
theorem ask_cases (ha : p.isAlive) (ho : p.transport.isClosed = false) (question : Question) :
    question.ask (p.tapped []) = ((question.ask p).1, (question.ask p).2.tapped (question.crossings p)) ∧
    (Crossing.Sent (p.transport.framing.wire question.request) (question.crossings p) ∧
        (question.ask p).1 = question.answerTo p.runtime p.nextLine ∧
        (question.ask p).2.isAlive = question.outlives p.nextLine ∨
      ¬ Crossing.Sent (p.transport.framing.wire question.request) (question.crossings p) ∧
        (∃ reason, (question.ask p).1 = .error (.desync (.writeFailed reason))) ∧
        (question.ask p).2.isAlive = false) := by
  have hcrossings : ∀ crossings : List Crossing,
      question.ask (p.tapped []) = ((question.ask p).1, (question.ask p).2.tapped crossings) →
        question.crossings p = crossings := by
    intro crossings h
    rw [Question.crossings, h]
    rfl
  rcases Transport.roundTrip_tapped ho question.request [] with
    ⟨pieces, peer, hpieces, hd, htap⟩ | ⟨pieces, reason, peer, -, hd, htap⟩
  · have hask := ask_tapped (EngineProcess.exchange_tapped ha htap)
    rw [hcrossings _ hask]
    exact ⟨hask, Or.inl ⟨⟨pieces, _, rfl, hpieces⟩, ask_of_sent ha ho hd⟩⟩
  · have hask := ask_tapped (EngineProcess.exchange_tapped ha htap)
    rw [hcrossings _ hask, List.nil_append]
    rw [List.nil_append] at hask
    refine ⟨hask, Or.inr ⟨not_sent_refused _ pieces reason, ?_⟩⟩
    rw [ask_of_failed ha ho hd]
    exact ⟨⟨reason, rfl⟩, rfl⟩

/-- **A process that was asked stays alive** if its request was sent and there is an answer, or something that
the question takes for one. -/
theorem isAlive_ask_iff (ha : p.isAlive) (ho : p.transport.isClosed = false) (question : Question) :
    (question.ask p).2.isAlive ↔
      Crossing.Sent (p.transport.framing.wire question.request) (question.crossings p) ∧
        ∃ r, Reads p.nextLine r ∧ ((∃ items, r = .array items) ∨ question.Overlooks r) := by
  obtain ⟨r, hr⟩ := exists_reads p.nextLine
  rcases (ask_cases ha ho question).2 with ⟨hsent, -, halive⟩ | ⟨hsent, -, halive⟩
  · rw [halive]
    constructor
    · intro h
      exact ⟨hsent, r, hr, (outlives_iff hr question).1 h⟩
    · rintro ⟨-, r', hr', h⟩
      exact (outlives_iff hr' question).2 h
  · rw [halive]
    constructor
    · intro h
      cases h
    · rintro ⟨h, -⟩
      exact absurd h hsent

end Question

/-! ### Processes over connected streams -/

/-- What may have become of a process over connected streams, whatever was done with it and its lifelines. -/
def EngineProcess.Connected (p : EngineProcess (Streams ω)) : Prop :=
  ∃ (others : List Bool) (runtime : String) (s : Streams ω) (framing : Framing) (deeds : List Deed),
    ((Holding.start others runtime s framing).run deeds).process = p

namespace EngineProcess

variable {p : EngineProcess (Streams ω)}

theorem connected_ofPeer (runtime : String) (s : Streams ω) (framing : Framing) :
    (ofPeer runtime s framing).Connected :=
  ⟨[], runtime, s, framing, [], rfl⟩

theorem Connected.linked (h : p.Connected) : p.Linked := by
  obtain ⟨others, runtime, s, framing, deeds, rfl⟩ := h
  exact ((Holding.coherent_start others runtime s framing).run deeds).linked

theorem ask_evaluate {π : Type} [Peer π] (request : Request) (marker : String) (p : EngineProcess π) :
    (Question.evaluate request marker).ask p =
      ((evaluate request marker p).1.map .value, (evaluate request marker p).2) := by
  show (evaluate request marker >>= fun v => pure (Answer.value v)) p = _
  cases he : evaluate request marker p with
  | mk result q =>
    cases result with
    | ok v => exact Attempt.bind_apply_of_ok he _
    | error e => exact Attempt.bind_apply_of_error he _

end EngineProcess

/-! ### An example -/

/-- A process on a sink that takes everything. -/
def EngineProcess.answering (output : String) : EngineProcess (Streams ScriptedSink) :=
  ofPeer "engine" ⟨{}, Text.bytes output⟩ .line

theorem deliver_streams (data output : List UInt8) :
    ∃ peer, deliver data (⟨{}, output⟩ : Streams ScriptedSink) = (.ok (), peer) := by
  by_cases hd : data = []
  · subst hd
    rw [deliver, writeAll_nil]
    exact ⟨_, rfl⟩
  · rw [deliver, writeAll_of_taken hd rfl]
    exact ⟨_, rfl⟩

theorem EngineProcess.isAlive_answering (output : String) (question : Question) :
    (question.ask (answering output)).2.isAlive = question.outlives (answering output).nextLine := by
  have halive : (answering output).isAlive := rfl
  obtain ⟨peer, hd⟩ := deliver_streams (Framing.line.wire question.request) (Text.bytes output)
  exact (Question.ask_of_sent halive rfl hd).2

/-! ### Evaluations -/

/-- What an evaluation gives for what the engine says of the source. -/
inductive Gives : Reply → Except Error Value → Prop
  | value (v : Value) : Gives (.value v) (.ok v)
  | syntaxError (message : String) : Gives (.syntaxError message) (.error (.syntaxError message))
  | programError (message : String) : Gives (.programError message) (.error (.programError message))

/-- What an evaluation says of a line that is no answer. -/
inductive Blames (runtime : String) (context : ContextId) : Reading → Desync → Prop
  | ended : Blames runtime context .ended (.noResponse runtime context)
  | garbled : Blames runtime context .garbled (.readFailed Text.invalidText)
  | blank : Blames runtime context .blank (.noResponse runtime context)
  | foreign (fault : Json.Fault) : Blames runtime context .foreign (.malformedResponse runtime fault)

namespace Question

variable {request : Request} {marker runtime : String} {line : List UInt8} {result : Except Error Value}

theorem eq_of_map_value (result' : Except Error Value)
    (h : result.map Answer.value = result'.map Answer.value) : result = result' := by
  cases result <;> cases result' <;> cases h <;> rfl

theorem gives_of_array {items : List Value} (h : Reads line (.array items))
    (hresult : result.map .value = (evaluate request marker).answerTo runtime line) :
    Gives ((Response.ofItems items).classify marker) result := by
  have hdecodes := decodes_textOf h
  unfold answerTo at hresult
  generalize textOf line = read at hdecodes hresult
  cases hdecodes with
  | array hreply =>
    have hne := (Response.ofItems items).classify_ne_absent marker
    simp only [conclude, Except.bind, hreply] at hresult
    generalize (Response.ofItems items).classify marker = reply at hresult hne
    cases reply with
    | value v =>
      cases eq_of_map_value (.ok v) hresult
      exact .value v
    | syntaxError message =>
      cases eq_of_map_value (.error _) hresult
      exact .syntaxError message
    | programError message =>
      cases eq_of_map_value (.error _) hresult
      exact .programError message
    | absent => exact absurd rfl hne

theorem blames_of_not_array {r : Reading} (h : Reads line r) (hr : ∀ items, r ≠ .array items)
    (hresult : result.map .value = (evaluate request marker).answerTo runtime line) :
    ∃ cause, Blames runtime request.context r cause ∧ result = .error (.desync cause) := by
  have hdecodes := decodes_textOf h
  unfold answerTo at hresult
  generalize textOf line = read at hdecodes hresult
  cases hdecodes with
  | ended => exact ⟨_, .ended, eq_of_map_value (.error _) hresult⟩
  | garbled => exact ⟨_, .garbled, eq_of_map_value (.error _) hresult⟩
  | blank hreply =>
    simp only [conclude, Except.bind, hreply] at hresult
    exact ⟨_, .blank, eq_of_map_value (.error _) hresult⟩
  | foreign hreply =>
    simp only [conclude, Except.bind, hreply] at hresult
    exact ⟨_, .foreign _, eq_of_map_value (.error _) hresult⟩
  | array => exact absurd rfl (hr _)

end Question

/-- What an evaluation comes to: a value or what the engine says of the source if there is an answer, and
otherwise a desync and a dead process. -/
structure EngineProcess.Settles (request : Request) (marker : String) (p : EngineProcess (Streams ω)) :
    Prop where
  /-- The tap shows what crosses, and changes nothing. -/
  tapped : evaluate request marker (p.tapped []) = ((evaluate request marker p).1,
    (evaluate request marker p).2.tapped ((Question.evaluate request marker).crossings p))
  isAlive_iff : (evaluate request marker p).2.isAlive ↔
    Crossing.Sent (p.transport.framing.wire request) ((Question.evaluate request marker).crossings p) ∧
      ∃ items, Reads p.nextLine (.array items)
  gives : (evaluate request marker p).2.isAlive → ∀ items, Reads p.nextLine (.array items) →
    Gives ((Response.ofItems items).classify marker) (evaluate request marker p).1
  blames : (evaluate request marker p).2.isAlive = false →
    ∃ cause, (evaluate request marker p).1 = .error (.desync cause) ∧
      ((∃ reason, cause = .writeFailed reason) ∨
        ∃ r, Reads p.nextLine r ∧ Blames p.runtime request.context r cause)

namespace EngineProcess.Connected

variable {p : EngineProcess (Streams ω)} (hc : p.Connected) (ha : p.isAlive)

include hc ha

/-- **An evaluation leaves the process alive exactly if its request was sent and the next line is an array**,
blanks around it apart, whatever the sink does and whatever the output is. -/
theorem evaluate_settles (request : Request) (marker : String) : p.Settles request marker := by
  have hopen := hc.linked ha
  have hask := ask_evaluate request marker p
  have hiff := Question.isAlive_ask_iff ha hopen (.evaluate request marker)
  obtain ⟨htap, hcases⟩ := Question.ask_cases ha hopen (.evaluate request marker)
  rw [hask] at hiff hcases
  refine ⟨?tapped, ?isAlive_iff, ?gives, ?blames⟩
  case tapped =>
    rw [hask, ask_evaluate] at htap
    obtain ⟨hresult, hleft⟩ := Prod.mk.inj htap
    exact Prod.ext (Question.eq_of_map_value _ hresult) hleft
  case isAlive_iff =>
    rw [hiff]
    refine and_congr_right fun _ => ⟨?_, ?_⟩
    · rintro ⟨r, hr, ⟨items, rfl⟩ | hoverlooks⟩
      · exact ⟨items, hr⟩
      · cases hoverlooks
    · rintro ⟨items, hr⟩
      exact ⟨_, hr, Or.inl ⟨items, rfl⟩⟩
  case gives =>
    intro halive items hr
    rcases hcases with ⟨-, hresult, -⟩ | ⟨-, -, hdead⟩
    · exact Question.gives_of_array hr hresult
    · exact absurd (hdead.symm.trans halive) Bool.false_ne_true
  case blames =>
    intro hdead
    rcases hcases with ⟨-, hresult, halive⟩ | ⟨-, ⟨reason, hresult⟩, -⟩
    · obtain ⟨r, hr⟩ := exists_reads p.nextLine
      have hnone : ∀ items, r ≠ .array items := by
        rintro items rfl
        have houtlives := (Question.outlives_iff hr (.evaluate request marker)).2 (Or.inl ⟨items, rfl⟩)
        exact absurd ((hdead.symm.trans halive).trans houtlives) Bool.false_ne_true
      obtain ⟨cause, hblames, hcause⟩ := Question.blames_of_not_array hr hnone hresult
      exact ⟨cause, hcause, Or.inr ⟨r, hr, hblames⟩⟩
    · exact ⟨_, Question.eq_of_map_value (.error _) hresult, Or.inl ⟨reason, rfl⟩⟩

end EngineProcess.Connected

theorem EngineProcess.evaluate_settles_one :
    let p := answering "[\"ok\",1]\n"
    p.Connected ∧ p.isAlive ∧ (evaluate (.evaluate 1 "1") "SyntaxError" p).2.isAlive ∧
      p.Settles (.evaluate 1 "1") "SyntaxError" := by
  intro p
  have hc : p.Connected := connected_ofPeer _ _ _
  have ha : p.isAlive := rfl
  have hafter : ((Question.evaluate (.evaluate 1 "1") "SyntaxError").ask p).2.isAlive := by
    rw [isAlive_answering]
    decide +kernel
  rw [ask_evaluate] at hafter
  exact ⟨hc, ha, hafter, hc.evaluate_settles ha (.evaluate 1 "1") "SyntaxError"⟩

/-! ### All questions -/

/-- What becomes of a process that is asked. -/
structure EngineProcess.Survives (question : Question) (p : EngineProcess (Streams ω)) : Prop where
  isAlive_iff : (question.ask p).2.isAlive ↔
    Crossing.Sent (p.transport.framing.wire question.request) (question.crossings p) ∧
      ∃ r, Reads p.nextLine r ∧ ((∃ items, r = .array items) ∨ question.Overlooks r)
  overlooked : (question.ask p).2.isAlive → ∀ r, Reads p.nextLine r → question.Overlooks r →
    ∃ answer, (question.ask p).1 = .ok answer
  blames : (question.ask p).2.isAlive = false → ∃ cause, (question.ask p).1 = .error (.desync cause)

namespace EngineProcess.Connected

variable {p : EngineProcess (Streams ω)} (hc : p.Connected) (ha : p.isAlive)

include hc ha

/-- **Which lines a process survives.**  What leaves it alive is an array, and besides what the question takes
for an answer.  So an evaluation, a teardown and an exchange differ on a blank line and on a text without an
array, which the last two pass over, and at the end of the output, which the last one passes over. -/
theorem survives_question (question : Question) : p.Survives question := by
  have hopen := hc.linked ha
  refine ⟨Question.isAlive_ask_iff ha hopen question, ?overlooked, ?blames⟩
  case overlooked =>
    intro halive r hr ho
    rcases (Question.ask_cases ha hopen question).2 with ⟨-, hresult, -⟩ | ⟨-, -, hdead⟩
    · rw [hresult]
      exact Question.answerTo_of_overlooks hr ho p.runtime
    · exact absurd (hdead.symm.trans halive) Bool.false_ne_true
  case blames =>
    intro hdead
    rcases (Question.ask_cases ha hopen question).2 with ⟨-, hresult, halive⟩ | ⟨-, ⟨reason, hresult⟩, -⟩
    · rw [hresult]
      exact Question.answerTo_of_not_outlives (halive.symm.trans hdead) p.runtime
    · exact ⟨_, hresult⟩

end EngineProcess.Connected

theorem EngineProcess.survives_question_ended :
    (answering "").Connected ∧ (answering "").isAlive ∧ (answering "").Survives (.teardown 7) :=
  ⟨connected_ofPeer _ _ _, rfl, (connected_ofPeer _ _ _).survives_question rfl (.teardown 7)⟩

/-- One blank line ends the process that it was read from for an evaluation, and for nothing else. -/
theorem EngineProcess.blank_overlooked :
    let p := answering "\n"
    p.Connected ∧ p.isAlive ∧ Reads p.nextLine .blank ∧
      ((Question.evaluate (.evaluate 7 "1") "SyntaxError").ask p).2.isAlive = false ∧
      ((Question.teardown 7).ask p).2.isAlive ∧
      ((Question.exchange (.evaluate 7 "1")).ask p).2.isAlive := by
  intro p
  have hline : p.nextLine = Text.bytes "\n" := by decide +kernel
  have hblank : Reads p.nextLine .blank := by
    rw [hline]
    refine .blank (by decide) fun c hc => ?_
    have hnewline : c = '\n' := List.mem_singleton.1 hc
    subst hnewline
    decide
  refine ⟨connected_ofPeer _ _ _, rfl, hblank, ?_, ?_, ?_⟩
  · rw [isAlive_answering, Bool.eq_false_iff]
    exact fun h => by simpa [Question.Overlooks] using (Question.outlives_iff hblank _).1 h
  · rw [isAlive_answering]
    exact (Question.outlives_iff hblank _).2 (Or.inr (Or.inl rfl))
  · rw [isAlive_answering]
    exact (Question.outlives_iff hblank _).2 (Or.inr (Or.inr (Or.inl rfl)))

end Channel

end EnginePipe
