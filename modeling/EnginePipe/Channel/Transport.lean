import EnginePipe.Attempt
import EnginePipe.Channel.Peer
import EnginePipe.Frame.Framing

/-!
# Transports

Both directions of a channel to a peer: requests go out whole and flushed before an answer is read,
and one line is read for each.  After a failure it is not known where in its output the peer stands,
so whoever holds the transport should not use it again.

* `send_of_deliver`, `receive_of_line`: what happens when the peer plays along.
* `roundTrip_of_send_error`: nothing is read for a request that was not sent.
-/

namespace EnginePipe.Channel

/-- A channel to a peer. -/
structure Transport (π : Type) where
  peer : π
  framing : Framing
  isClosed : Bool := false

namespace Transport

variable {π : Type} [Peer π]

/-- Writes one request and flushes. -/
def send (request : Request) : Attempt (Transport π) Unit := fun t =>
  match t.framing.encode request with
  | none => (.error (.desync .uncuttable), t)
  | some wire =>
    if t.isClosed then (.error (.desync .inputClosed), t)
    else
      match deliver (Text.bytes wire) t.peer with
      | (.ok (), peer) => (.ok (), { t with peer })
      | (.error reason, peer) => (.error (.desync (.writeFailed reason)), { t with peer })

/-- Reads one line with its end; nothing at the end of the output. -/
def receive : Attempt (Transport π) (Option String) := fun t =>
  if t.isClosed then (.error (.desync .outputClosed), t)
  else
    match Peer.readLine t.peer with
    | ([], peer) => (.ok none, { t with peer })
    | (line, peer) =>
      match Text.ofBytes? line with
      | some text => (.ok (some text), { t with peer })
      | none => (.error (.desync (.readFailed Text.invalidText)), { t with peer })

/-- Writes a request and reads the line that answers it. -/
def roundTrip (request : Request) : Attempt (Transport π) (Option String) := do
  send request
  receive

/-- Closes both directions; closing again does nothing. -/
def close (t : Transport π) : Transport π :=
  if t.isClosed then t else { t with peer := Peer.hangUp t.peer, isClosed := true }

@[simp] theorem isClosed_close (t : Transport π) : t.close.isClosed = true := by
  rw [close]
  split
  · assumption
  · rfl

@[simp] theorem close_close (t : Transport π) : t.close.close = t.close := by
  rw [close, if_pos (isClosed_close t)]

theorem send_of_deliver {t : Transport π} {request : Request} {wire : String} {peer : π}
    (hw : t.framing.encode request = some wire) (hc : t.isClosed = false)
    (hd : deliver (Text.bytes wire) t.peer = (.ok (), peer)) :
    send request t = (.ok (), { t with peer }) := by
  simp [send, hw, hc, hd]

theorem receive_of_line {t : Transport π} {text : String} {line : List UInt8} {peer : π}
    (hc : t.isClosed = false) (hr : Peer.readLine t.peer = (line, peer)) (hl : line ≠ [])
    (ht : Text.ofBytes? line = some text) :
    receive t = (.ok (some text), { t with peer }) := by
  cases line with
  | nil => exact absurd rfl hl
  | cons b line => simp [receive, hc, hr, ht]

theorem roundTrip_of_send_error {t t' : Transport π} {request : Request} {e : Error}
    (h : send request t = (.error e, t')) : roundTrip request t = (.error e, t') :=
  Attempt.bind_apply_of_error h _

/-! ### Display -/

/-- A framing as it is shown to developers. -/
def describeFraming : Framing → String
  | .line => "Line"
  | .chunked size => "Chunked \x7b max_frame_size: " ++ toString size ++ " \x7d"

/-- A transport as it is shown to developers. -/
def describe (t : Transport π) : String :=
  "LineTransport \x7b framing: " ++ describeFraming t.framing ++ ", closed: " ++
    toString t.isClosed ++ " \x7d"

end Transport

end EnginePipe.Channel
