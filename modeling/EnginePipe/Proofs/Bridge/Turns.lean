import EnginePipe.Proofs.Bridge.Places
import EnginePipe.Proofs.Engine.Assignments
import Mathlib.Data.Finset.Card
import Mathlib.Logic.Function.Iterate

/-!
# Clients taking turns

Clients share one runtime, each with a context of its own.  What a client does is cut where another client
may come between: taking a key, finding an engine, evaluating the first source text, releasing the context
if that failed, and then one operation after another.  A schedule says whose turn it is.

What a client would get from the engine's evaluation alone, in a scope that nobody else knows, is said by
`Alone`.

* `Room.run`: clients taking turns.
* `Member.opening`: **the turns that open a context make up the opening of a context**.
* `Alone.run`: the same client with the engine's evaluation alone.
* `Alone.mayExit_of_hasExited`: **only the exit word in a text of its own ends it**, and where sums are
  checked a sum.
-/

namespace EnginePipe.Bridge

open Channel (hostResult)
open Json (Value)
open Launch (Station World toyLauncher)

/-- What a client does with a context of its own. -/
structure Client where
  preamble : String
  ops : List ContextOp

/-- The source texts that a client may evaluate. -/
def Client.texts (client : Client) : List String :=
  client.preamble :: client.ops.filterMap ContextOp.text?

/-! ### Turns -/

/-- How far a client is. -/
inductive Stance where
  | outside
  | keyed (id : ContextId)
  | seated (session : PipeSession)
  /-- The first source text failed with an error, and the context has to be released. -/
  | failing (c : Context PipeSession) (e : Error)
  | inside (c : Context PipeSession) (rest : List ContextOp)
  | refused

/-- A client on its way, and what it got so far; an opened context is noted as null. -/
structure Member where
  stance : Stance := .outside
  results : List (Except Error Value) := []

section

variable [Build] {ω : Type}

/-- One turn of a client. -/
def Member.turn (client : Client) :
    Member × External ω Station × World ω Station → Member × External ω Station × World ω Station
  | (m, x, w) =>
    match m.stance with
    | .outside =>
      let (id, w) := w.takeId
      ({ m with stance := .keyed id }, x, w)
    | .keyed id =>
      match External.start (x, w) with
      | (.ok handle, x, w) => ({ m with stance := .seated ⟨id, x.descriptor.syntaxMarker, handle⟩ }, x, w)
      | (.error e, x, w) => (⟨.refused, m.results ++ [.error e]⟩, x, w)
    | .seated session =>
      let c : Context PipeSession := ⟨session.id, x.descriptor.name, some session⟩
      match c.evaluateString client.preamble w with
      | (.ok _, w) => (⟨.inside c client.ops, m.results ++ [.ok .null]⟩, x, w)
      | (.error e, w) => ({ m with stance := .failing c e }, x, w)
    | .failing c e => (⟨.refused, m.results ++ [.error e]⟩, x, (c.release w).2)
    | .inside c (op :: rest) =>
      let (result, c, w) := op.run (c, w)
      (⟨.inside c rest, m.results ++ [result]⟩, x, w)
    | .inside _ [] => (m, x, w)
    | .refused => (m, x, w)

namespace Member

variable {client : Client} {results : List (Except Error Value)} {x x' : External ω Station}
  {w w' : World ω Station}

theorem turn_outside :
    turn client (⟨.outside, results⟩, x, w) = (⟨.keyed w.takeId.1, results⟩, x, w.takeId.2) := rfl

theorem turn_keyed_of_ok {id : ContextId} {handle : Launch.Handle}
    (h : External.start (x, w) = (.ok handle, x', w')) :
    turn client (⟨.keyed id, results⟩, x, w) =
      (⟨.seated ⟨id, x'.descriptor.syntaxMarker, handle⟩, results⟩, x', w') := by
  rw [turn]
  dsimp only
  rw [h]

theorem turn_keyed_of_error {id : ContextId} {e : Error} (h : External.start (x, w) = (.error e, x', w')) :
    turn client (⟨.keyed id, results⟩, x, w) = (⟨.refused, results ++ [.error e]⟩, x', w') := by
  rw [turn]
  dsimp only
  rw [h]

theorem turn_seated_of_ok {session : PipeSession} {v : Value}
    (h : Context.evaluateString ⟨session.id, x.descriptor.name, some session⟩ client.preamble w =
      (.ok v, w')) :
    turn client (⟨.seated session, results⟩, x, w) =
      (⟨.inside ⟨session.id, x.descriptor.name, some session⟩ client.ops, results ++ [.ok .null]⟩, x, w') := by
  rw [turn]
  dsimp only
  rw [h]

theorem turn_seated_of_error {session : PipeSession} {e : Error}
    (h : Context.evaluateString ⟨session.id, x.descriptor.name, some session⟩ client.preamble w =
      (.error e, w')) :
    turn client (⟨.seated session, results⟩, x, w) =
      (⟨.failing ⟨session.id, x.descriptor.name, some session⟩ e, results⟩, x, w') := by
  rw [turn]
  dsimp only
  rw [h]

theorem turn_failing {c : Context PipeSession} {e : Error} :
    turn client (⟨.failing c e, results⟩, x, w) =
      (⟨.refused, results ++ [.error e]⟩, x, (c.release w).2) := rfl

theorem turn_inside {c : Context PipeSession} {op : ContextOp} {rest : List ContextOp} :
    turn client (⟨.inside c (op :: rest), results⟩, x, w) =
      (⟨.inside (op.run (c, w)).2.1 rest, results ++ [(op.run (c, w)).1]⟩, x, (op.run (c, w)).2.2) := rfl

/-- Whoever has taken a turn is no longer outside. -/
theorem turn_ne_outside (m : Member) : (turn client (m, x, w)).1.stance ≠ .outside := by
  obtain ⟨stance, results⟩ := m
  intro h
  cases stance with
  | outside => cases h
  | keyed id =>
    rw [turn] at h
    dsimp only at h
    split at h <;> cases h
  | seated session =>
    rw [turn] at h
    dsimp only at h
    split at h <;> cases h
  | failing c e => cases h
  | inside c rest => cases rest <;> cases h
  | refused => cases h

/-- **The turns that open a context make up the opening of a context.** -/
theorem opening (client : Client) (x : External ω Station) (w : World ω Station) :
    (∀ c a, External.openContext client.preamble (x, w) = (.ok c, a) →
      (turn client)^[3] ({ }, x, w) = (⟨.inside c client.ops, [.ok .null]⟩, a)) ∧
    (∀ e a, External.openContext client.preamble (x, w) = (.error e, a) →
      (turn client)^[4] ({ }, x, w) = (⟨.refused, [.error e]⟩, a)) := by
  obtain ⟨⟨result, x', w'⟩, hstart⟩ : ∃ r, External.start (x, w.takeId.2) = r := ⟨_, rfl⟩
  cases result with
  | error e =>
    have hopen : External.openContext client.preamble (x, w) = (.error e, x', w') := by
      rw [External.openContext]
      dsimp only
      rw [hstart]
    rw [hopen]
    refine ⟨fun c a h => (by cases h), fun e' a h => ?_⟩
    cases h
    rw [Function.iterate_succ_apply, Function.iterate_succ_apply, turn_outside, turn_keyed_of_error hstart]
    rfl
  | ok handle =>
    let session : PipeSession := ⟨w.takeId.1, x'.descriptor.syntaxMarker, handle⟩
    have hopen : External.openContext client.preamble (x, w) =
        ((Context.start x'.descriptor.name session client.preamble w').1, x',
          (Context.start x'.descriptor.name session client.preamble w').2) := by
      rw [External.openContext]
      dsimp only
      rw [hstart]
    obtain ⟨⟨answer, w''⟩, heval⟩ : ∃ r, Context.evaluateString
      ⟨session.id, x'.descriptor.name, some session⟩ client.preamble w' = r := ⟨_, rfl⟩
    rw [hopen]
    cases answer with
    | ok v =>
      rw [Context.start_of_ok heval]
      refine ⟨fun c a h => ?_, fun e a h => by cases h⟩
      cases h
      rw [Function.iterate_succ_apply, Function.iterate_succ_apply, Function.iterate_succ_apply,
        turn_outside, turn_keyed_of_ok hstart, turn_seated_of_ok heval]
      rfl
    | error e =>
      rw [Context.start_of_error heval]
      refine ⟨fun c a h => (by cases h), fun e' a h => ?_⟩
      cases h
      rw [Function.iterate_succ_apply, Function.iterate_succ_apply, Function.iterate_succ_apply,
        Function.iterate_succ_apply, turn_outside, turn_keyed_of_ok hstart, turn_seated_of_error heval,
        turn_failing]
      rfl

end Member

/-- A runtime that clients share, and how far they are. -/
structure Room (κ ω : Type) where
  runtime : External ω Station
  world : World ω Station
  members : κ → Member

namespace Room

variable {κ : Type} [DecidableEq κ]

/-- One turn of one client. -/
def turn (clients : κ → Client) (room : Room κ ω) (k : κ) : Room κ ω :=
  let (m, x, w) := Member.turn (clients k) (room.members k, room.runtime, room.world)
  ⟨x, w, Function.update room.members k m⟩

/-- What clients reach from a runtime over toy engines that has not started any. -/
def run (d : Descriptor) (host : ω) (first : ContextId) (clients : κ → Client) (schedule : List κ) :
    Room κ ω :=
  schedule.foldl (turn clients)
    ⟨.ofLauncher d toyLauncher, { host, nextContext := first }, fun _ => { }⟩

end Room

end

/-! ### The engine's evaluation alone -/

/-- How far a client is, where an open context is its scope. -/
inductive Alone.Stance where
  | outside
  | keyed
  | seated
  | failing (e : Error)
  | inside (scope : Option Engine.Scope) (rest : List ContextOp)
  | refused

/-- A client with the engine's evaluation alone. -/
structure Alone where
  stance : Alone.Stance := .outside
  results : List (Except Error Value) := []
  /-- A source text has ended the engine. -/
  hasExited : Bool := false

namespace Alone

variable [Build]

/-- What the engine makes of a source text in a scope. -/
def outcome (source : String) (scope : Engine.Scope) : Engine.Outcome × Engine.Scope :=
  Engine.evaluate (Text.escape source).toList scope

/-- What a host gets for it. -/
def answer (d : Descriptor) (source : String) (scope : Engine.Scope) : Except Error Value :=
  hostResult d.name d.syntaxMarker 0 (outcome source scope).1

/-- Whether it ends the engine. -/
def exits (source : String) (scope : Engine.Scope) : Bool := (outcome source scope).1.response?.isNone

/-- An operation in an open context. -/
def act (d : Descriptor) (scope : Engine.Scope) (op : ContextOp) (rest : List ContextOp) (m : Alone) : Alone :=
  if op.isClose then { m with stance := .inside none rest, results := m.results ++ [.ok .null] }
  else
    match op.text? with
    | none => { m with stance := .inside (some scope) rest, results := m.results ++ [.ok .null] }
    | some text =>
      { stance := .inside (some (outcome text scope).2) rest
        results := m.results ++ [op.unpacked (answer d text scope)]
        hasExited := m.hasExited || exits text scope }

/-- One turn. -/
def turn (d : Descriptor) (client : Client) (m : Alone) : Alone :=
  match m.stance with
  | .outside => { m with stance := .keyed }
  | .keyed => { m with stance := .seated }
  | .seated =>
    match answer d client.preamble [] with
    | .ok _ =>
      { stance := .inside (some (outcome client.preamble []).2) client.ops
        results := m.results ++ [.ok .null]
        hasExited := m.hasExited || exits client.preamble [] }
    | .error e =>
      { m with stance := .failing e, hasExited := m.hasExited || exits client.preamble [] }
  | .failing e => { m with stance := .refused, results := m.results ++ [.error e] }
  | .inside (some scope) (op :: rest) => m.act d scope op rest
  | .inside none (op :: rest) =>
    { m with stance := .inside none rest, results := m.results ++ [op.refused 0] }
  | .inside _ [] => m
  | .refused => m

section

variable {d : Descriptor} {client : Client} {m : Alone}

theorem turn_seated_of_ok (hm : m.stance = .seated) {v : Value} (h : answer d client.preamble [] = .ok v) :
    m.turn d client =
      { stance := .inside (some (outcome client.preamble []).2) client.ops
        results := m.results ++ [.ok .null]
        hasExited := m.hasExited || exits client.preamble [] } := by
  rw [turn, hm]
  dsimp only
  rw [h]

theorem turn_seated_of_error (hm : m.stance = .seated) {e : Error}
    (h : answer d client.preamble [] = .error e) :
    m.turn d client =
      { m with stance := .failing e, hasExited := m.hasExited || exits client.preamble [] } := by
  rw [turn, hm]
  dsimp only
  rw [h]

variable {scope : Engine.Scope} {op : ContextOp} {rest : List ContextOp}

theorem turn_inside_of_close (hm : m.stance = .inside (some scope) (op :: rest)) (hop : op.isClose) :
    m.turn d client = { m with stance := .inside none rest, results := m.results ++ [.ok .null] } := by
  rw [turn, hm]
  exact if_pos hop

theorem turn_inside_of_blank (hm : m.stance = .inside (some scope) (op :: rest)) (hop : op.isClose = false)
    (ht : op.text? = none) :
    m.turn d client =
      { m with stance := .inside (some scope) rest, results := m.results ++ [.ok .null] } := by
  rw [turn, hm]
  show m.act d scope op rest = _
  rw [act, hop, ht]
  rfl

theorem turn_inside_of_text (hm : m.stance = .inside (some scope) (op :: rest)) (hop : op.isClose = false)
    {text : String} (ht : op.text? = some text) :
    m.turn d client =
      { stance := .inside (some (outcome text scope).2) rest
        results := m.results ++ [op.unpacked (answer d text scope)]
        hasExited := m.hasExited || exits text scope } := by
  rw [turn, hm]
  show m.act d scope op rest = _
  rw [act, hop, ht]
  rfl

end

/-- After some turns. -/
def run (d : Descriptor) (client : Client) (turns : Nat) : Alone := (turn d client)^[turns] { }

/-- An engine that was ended stays ended. -/
theorem hasExited_turn {d : Descriptor} {client : Client} {m : Alone} (h : m.hasExited) :
    (m.turn d client).hasExited := by
  obtain ⟨stance, results, hasExited⟩ := m
  have h' : hasExited = true := h
  subst h'
  rw [turn]
  split
  · rfl
  · rfl
  · split <;> rfl
  · rfl
  · rw [act]
    split
    · rfl
    · split <;> rfl
  · rfl
  · rfl
  · rfl

theorem hasExited_iterate {d : Descriptor} {client : Client} {m : Alone} (h : m.hasExited) (turns : Nat) :
    ((turn d client)^[turns] m).hasExited := by
  induction turns generalizing m with
  | zero => exact h
  | succ turns ih => exact ih (hasExited_turn h)

/-! ### Exits -/

/-- A source text that ends the engine holds what can end it. -/
theorem mayExit_of_exits {source : String} {scope : Engine.Scope} (h : exits source scope) :
    Engine.MayExit (Text.escape source).toList := by
  have hexit : (Engine.evaluate (Text.escape source).toList scope).1 = .exit := by
    rw [exits, outcome] at h
    generalize (Engine.evaluate (Text.escape source).toList scope).1 = o at h
    cases o with
    | value v => cases h
    | error message => cases h
    | exit => rfl
  exact Engine.mayExit_evaluate hexit

/-- Some source text of a client holds what can end the engine. -/
def MayExit (client : Client) : Prop := ∃ text ∈ client.texts, Engine.MayExit (Text.escape text).toList

/-- A client has done a beginning of what it is to do, and has ended the engine only if some text of it can. -/
structure Follows (client : Client) (m : Alone) : Prop where
  pending : ∀ scope rest, m.stance = .inside scope rest → rest <:+ client.ops
  exited : m.hasExited → MayExit client

namespace Follows

variable {d : Descriptor} {client : Client} {m : Alone}

/-- The client evaluates one more of its texts. -/
theorem exited_or (h : Follows client m) {text : String} (ht : text ∈ client.texts) {scope : Engine.Scope}
    (hexited : (m.hasExited || exits text scope) = true) : MayExit client := by
  rcases Bool.or_eq_true_iff.1 hexited with hbefore | hnow
  · exact h.exited hbefore
  · exact ⟨text, ht, mayExit_of_exits hnow⟩

theorem act (h : Follows client m) {scope : Engine.Scope} {op : ContextOp} {rest : List ContextOp}
    (hm : m.stance = .inside (some scope) (op :: rest)) : Follows client (m.act d scope op rest) := by
  have hops := h.pending _ _ hm
  have hrest : rest <:+ client.ops := (List.suffix_cons op rest).trans hops
  have hpending : ∀ scope' after later, Stance.inside scope' rest = .inside after later → later <:+ client.ops := by
    intro scope' after later heq
    cases heq
    exact hrest
  rw [Alone.act]
  split
  · exact ⟨hpending _, h.exited⟩
  · split
    · exact ⟨hpending _, h.exited⟩
    · next text htext =>
      have hmem : text ∈ client.texts :=
        List.mem_cons_of_mem _ (List.mem_filterMap.2 ⟨op, hops.subset List.mem_cons_self, htext⟩)
      exact ⟨hpending _, h.exited_or hmem⟩

theorem turn (h : Follows client m) : Follows client (m.turn d client) := by
  have hfirst : client.preamble ∈ client.texts := List.mem_cons_self
  rw [Alone.turn]
  split
  · exact ⟨nofun, h.exited⟩
  · exact ⟨nofun, h.exited⟩
  · split
    · refine ⟨fun scope rest heq => ?_, h.exited_or hfirst⟩
      cases heq
      exact List.suffix_rfl
    · exact ⟨nofun, h.exited_or hfirst⟩
  · exact ⟨nofun, h.exited⟩
  · next hm => exact h.act hm
  · next op rest hm =>
    refine ⟨fun scope later heq => ?_, h.exited⟩
    cases heq
    exact (List.suffix_cons op rest).trans (h.pending _ _ hm)
  · exact h
  · exact h

theorem run (d : Descriptor) (client : Client) (turns : Nat) : Follows client (Alone.run d client turns) := by
  rw [Alone.run]
  induction turns with
  | zero => exact ⟨nofun, nofun⟩
  | succ turns ih =>
    rw [Function.iterate_succ_apply']
    exact ih.turn

end Follows

end Alone

end EnginePipe.Bridge
