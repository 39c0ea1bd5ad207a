import EnginePipe.Context.Logged
import EnginePipe.Proofs.Bridge.Cleanup

/-!
# Lifetimes of contexts

A context is opened with a preamble, something is done with it, and at the end it is released: it is dropped,
or closed by whoever opened it.  What its session sees of that is the preamble, the texts that are sent, and one
call to close, which comes last.

* `Routine`: what is done with a context, step by step.
* `Routine.Course`, `Routine.course_run`: the calls that a routine makes, and what comes of it.
* `Context.Story`, `Context.story_conduct`: the whole life of a context.
* `Context.lifecycle`: **a session is closed exactly once, by the last call**, and of two failures the first
  counts.
-/

namespace EnginePipe

open Json (Value)

/-! ### Routines -/

/-- What is done with a context step by step, where each step may depend on what the ones before it gave, and
what comes of it. -/
inductive Routine (α : Type) where
  | done (a : α)
  | act (op : ContextOp) (next : Except Error Value → Routine α)

namespace Routine

variable {s σ τ α β : Type}

/-- Does the steps. -/
def run [Session s σ] : Routine α → Context s × σ → α × Context s × σ
  | .done a => fun w => (a, w)
  | .act op next => fun w => (next (op.run w).1).run (op.run w).2

theorem run_act [Session s σ] (op : ContextOp) (next : Except Error Value → Routine α) (w : Context s × σ) :
    (Routine.act op next).run w = (next (op.run w).1).run (op.run w).2 := rfl

theorem run_one [Session s σ] (op : ContextOp) :
    ((Routine.act op .done).run : Context s × σ → Except Error Value × Context s × σ) = op.run := rfl

/-- What comes of a routine in a context that is closed. -/
def refused (context : ContextId) : Routine α → α
  | .done a => a
  | .act op next => (next (op.refused context)).refused context

/-- What is made of what comes of it. -/
def map (f : α → β) : Routine α → Routine β
  | .done a => .done (f a)
  | .act op next => .act op fun r => (next r).map f

/-- One operation after the other, and what each of them gave. -/
def inOrder : List ContextOp → Routine (List (Except Error Value))
  | [] => .done []
  | op :: ops => .act op fun r => (inOrder ops).map (r :: ·)

theorem run_of_closed [Session s σ] {c : Context s} (hc : c.session = none) (routine : Routine α) (w : σ) :
    routine.run (c, w) = (routine.refused c.id, c, w) := by
  induction routine generalizing w with
  | done a => rfl
  | act op next ih =>
    rw [run_act, ContextOp.run_of_closed hc]
    exact ih _ w

theorem refused_map (f : α → β) (context : ContextId) (routine : Routine α) :
    (routine.map f).refused context = f (routine.refused context) := by
  induction routine with
  | done a => rfl
  | act op next ih => exact ih (op.refused context)

theorem refused_inOrder (context : ContextId) (ops : List ContextOp) :
    (inOrder ops).refused context = ops.map (·.refused context) := by
  induction ops with
  | nil => rfl
  | cons op ops ih =>
    show ((inOrder ops).map _).refused context = _
    rw [refused_map, ih, List.map_cons]

theorem run_alike [Session s σ] [Session s τ] {R : σ → τ → Prop} (hS : SessionsAlike s R)
    (routine : Routine α) {w : Context s × σ} {w' : Context s × τ} (h : Beside R w w') :
    (routine.run w).1 = (routine.run w').1 ∧ Beside R (routine.run w).2 (routine.run w').2 := by
  induction routine generalizing w w' with
  | done a => exact ⟨rfl, h⟩
  | act op next ih =>
    obtain ⟨hr, hend⟩ := ContextOp.run_alike hS op w w' h
    rw [run_act, run_act, hr]
    exact ih _ hend

/-! ### Courses -/

/-- What a routine does in an open context whose session answers at will: the calls of the session, what comes
of it, and whether the context is open afterwards. -/
inductive Course (id : ContextId) (session : s) : Routine α → List (SessionCall s) → α → Bool → Prop
  | done (a : α) : Course id session (.done a) [] a true
  /-- Nothing is sent for a blank text. -/
  | blank {op : ContextOp} {next : Except Error Value → Routine α} {calls : List (SessionCall s)} {a : α}
    {isOpen : Bool} (hop : op.isClose = false) (htext : op.text? = none)
    (hrest : Course id session (next (.ok .null)) calls a isOpen) :
    Course id session (.act op next) calls a isOpen
  | sent {op : ContextOp} {text : String} {next : Except Error Value → Routine α}
    {calls : List (SessionCall s)} {a : α} {isOpen : Bool} (htext : op.text? = some text)
    (answer : Except Error Value) (hrest : Course id session (next (op.unpacked answer)) calls a isOpen) :
    Course id session (.act op next) (.evaluated session text answer :: calls) a isOpen
  /-- Behind a close nothing reaches the session. -/
  | closed (next : Except Error Value → Routine α) (closing : Except Error Unit) :
    Course id session (.act .close next) [.closed session closing]
      ((next (closing.map fun _ => .null)).refused id) false

end Routine

/-! ### Logged sessions -/

section

variable {s σ α : Type} [Session s σ]

/-- The log changes nothing. -/
theorem sessionsAlike_logged : SessionsAlike s fun (l : Logged s σ) (w : σ) => l.world = w where
  id := fun _ => rfl
  evaluate := by
    rintro session source l w rfl
    exact ⟨rfl, rfl⟩
  close := by
    rintro session l w rfl
    exact ⟨rfl, rfl⟩

namespace Context

variable {c : Context s} {session : s} (hc : c.session = some session)

include hc

theorem evaluateString_logged (source : String) (l : Logged s σ) : ∃ answer world,
    c.evaluateString source l = (answer, ⟨world, l.calls ++ [.evaluated session source answer]⟩) := by
  rw [evaluateString, hc]
  exact ⟨_, _, rfl⟩

theorem release_logged (l : Logged s σ) : ∃ closing world,
    c.release l = (closing, ⟨world, l.calls ++ [.closed session closing]⟩) := by
  rw [release, hc]
  exact ⟨_, _, rfl⟩

end Context

/-- **The course of a routine.** -/
theorem Routine.course_run {c : Context s} {session : s} (hc : c.session = some session)
    (routine : Routine α) (l : Logged s σ) :
    ∃ calls isOpen, Course c.id session routine calls (routine.run (c, l)).1 isOpen ∧
      (routine.run (c, l)).2.2.calls = l.calls ++ calls ∧
      (routine.run (c, l)).2.1 = if isOpen then c else c.closed := by
  induction routine generalizing l with
  | done a => exact ⟨[], true, .done a, (List.append_nil _).symm, rfl⟩
  | act op next ih =>
    rw [run_act]
    cases hop : op.isClose with
    | true =>
      cases op with
      | close =>
        obtain ⟨closing, world, hrelease⟩ := Context.release_logged hc l
        rw [ContextOp.run_close, hrelease, run_of_closed rfl]
        exact ⟨_, false, .closed next closing, rfl, rfl⟩
      | _ => cases hop
    | false =>
      rw [ContextOp.run_eq c hop]
      cases htext : op.text? with
      | none =>
        obtain ⟨calls, isOpen, hcourse, hcalls, hleft⟩ := ih (.ok .null) l
        exact ⟨calls, isOpen, .blank hop htext hcourse, hcalls, hleft⟩
      | some text =>
        dsimp only
        obtain ⟨answer, world, hanswer⟩ := Context.evaluateString_logged hc text l
        rw [hanswer]
        obtain ⟨calls, isOpen, hcourse, hcalls, hleft⟩ := ih (op.unpacked answer)
          ⟨world, l.calls ++ [.evaluated session text answer]⟩
        refine ⟨_, isOpen, .sent htext answer hcourse, ?_, hleft⟩
        rw [hcalls, List.append_assoc, List.singleton_append]

end

/-! ### The whole life -/

section

variable {s σ τ α : Type}

namespace Context

/-- Opens a context, follows a routine in it and releases it, by dropping it or by closing it; gives what came of
the routine and of the release. -/
def conduct [Session s σ] (runtime : String) (session : s) (preamble : String) (routine : Routine α) :
    Attempt σ (α × Except Error Unit) := fun w =>
  match start runtime session preamble w with
  | (.error e, w) => (.error e, w)
  | (.ok c, w) =>
    (.ok ((routine.run (c, w)).1, ((routine.run (c, w)).2.1.release (routine.run (c, w)).2.2).1),
      ((routine.run (c, w)).2.1.release (routine.run (c, w)).2.2).2)

/-- What there is to tell of a context: how it went, and the calls of its session. -/
inductive Story (id : ContextId) (session : s) (preamble : String) (routine : Routine α) :
    Except Error (α × Except Error Unit) → List (SessionCall s) → Prop
  /-- The preamble fails, and nothing else is done. -/
  | failed (e : Error) (closing : Except Error Unit) :
    Story id session preamble routine (.error e)
      [.evaluated session preamble (.error e), .closed session closing]
  /-- The routine leaves the context open, so the release closes it. -/
  | released {v : Value} {calls : List (SessionCall s)} {a : α} (h : routine.Course id session calls a true)
    (closing : Except Error Unit) :
    Story id session preamble routine (.ok (a, closing))
      (.evaluated session preamble (.ok v) :: (calls ++ [.closed session closing]))
  /-- The routine closes the context itself, and nothing is left to release. -/
  | closed {v : Value} {calls : List (SessionCall s)} {a : α} (h : routine.Course id session calls a false) :
    Story id session preamble routine (.ok (a, .ok ())) (.evaluated session preamble (.ok v) :: calls)

theorem conduct_alike [Session s σ] [Session s τ] {R : σ → τ → Prop} (hS : SessionsAlike s R)
    (runtime : String) (session : s) (preamble : String) (routine : Routine α) :
    Attempt.Alike R (conduct runtime session preamble routine) (conduct runtime session preamble routine) := by
  intro a b h
  obtain ⟨result, a', b', ha, hb, hab⟩ := exists_answer (start_alike hS runtime session preamble a b h)
  rw [conduct, conduct, ha, hb]
  cases result with
  | error e => exact ⟨rfl, hab⟩
  | ok c =>
    have hbeside : Beside R (c, a') (c, b') := ⟨rfl, hab⟩
    obtain ⟨hgave, hc, hend⟩ := routine.run_alike hS hbeside
    obtain ⟨hreleased, hlast⟩ := release_alike hS (routine.run (c, b')).2.1 _ _ hend
    dsimp only
    rw [hgave, hc, hreleased]
    exact ⟨rfl, hlast⟩

section

variable [Session s σ] {runtime : String} {session : s} {preamble : String} {w w₁ w₂ w₃ : σ}

theorem conduct_of_error {e : Error} {closing : Except Error Unit}
    (h : evaluateString ⟨Session.id σ session, runtime, some session⟩ preamble w = (.error e, w₁))
    (hrelease : release ⟨Session.id σ session, runtime, some session⟩ w₁ = (closing, w₂))
    (routine : Routine α) : conduct runtime session preamble routine w = (.error e, w₂) := by
  rw [conduct, start_of_error h, hrelease]

theorem conduct_of_ok {v : Value} {routine : Routine α} {a : α} {c : Context s} {closing : Except Error Unit}
    (h : evaluateString ⟨Session.id σ session, runtime, some session⟩ preamble w = (.ok v, w₁))
    (hrun : routine.run (⟨Session.id σ session, runtime, some session⟩, w₁) = (a, c, w₂))
    (hrelease : c.release w₂ = (closing, w₃)) :
    conduct runtime session preamble routine w = (.ok (a, closing), w₃) := by
  rw [conduct, start_of_ok h]
  dsimp only
  rw [hrun, hrelease]

end

/-- **The story of a context.** -/
theorem story_conduct [Session s σ] (runtime : String) (session : s) (preamble : String)
    (routine : Routine α) (w : σ) :
    let r := conduct runtime session preamble routine (⟨w, []⟩ : Logged s σ)
    Story (Session.id σ session) session preamble routine r.1 r.2.calls := by
  have hc : (⟨Session.id σ session, runtime, some session⟩ : Context s).session = some session := rfl
  obtain ⟨first, world, hfirst⟩ := evaluateString_logged hc preamble (⟨w, []⟩ : Logged s σ)
  rw [List.nil_append] at hfirst
  dsimp only
  cases first with
  | error e =>
    obtain ⟨closing, world', hrelease⟩ := release_logged hc
      (⟨world, [.evaluated session preamble (.error e)]⟩ : Logged s σ)
    rw [conduct_of_error hfirst hrelease]
    exact .failed e closing
  | ok v =>
    obtain ⟨calls, isOpen, hcourse, hcalls, hleft⟩ := Routine.course_run hc routine
      (⟨world, [.evaluated session preamble (.ok v)]⟩ : Logged s σ)
    generalize hrun : routine.run ((⟨Session.id σ session, runtime, some session⟩ : Context s),
      (⟨world, [.evaluated session preamble (.ok v)]⟩ : Logged s σ)) = left at hcourse hcalls hleft
    obtain ⟨a, c, world', calls'⟩ := left
    have hcalls' : calls' = .evaluated session preamble (.ok v) :: calls := hcalls
    cases isOpen with
    | true =>
      have hopen : c.session = some session := congrArg Context.session hleft
      obtain ⟨closing, world'', hrelease⟩ := release_logged hopen (⟨world', calls'⟩ : Logged s σ)
      rw [conduct_of_ok hfirst hrun hrelease, hcalls']
      exact .released hcourse closing
    | false =>
      have hclosed : c.session = none := congrArg Context.session hleft
      rw [conduct_of_ok hfirst hrun (release_of_closed hclosed _), hcalls']
      exact .closed hcourse

/-- Of what came of a use and what came of the release, the first error counts. -/
def settled (used : Except Error α) (released : Except Error Unit) : Except Error α :=
  used.bind fun a => released.map fun _ => a

/-- A context that is opened, used and closed: that is its conduct, and what the use and the release came to is
settled. -/
theorem finish_conduct [Session s σ] (runtime : String) (session : s) (preamble : String)
    (routine : Routine (Except Error α)) (w : σ) :
    (start runtime session preamble >>= fun c => c.finish routine.run) w =
      ((conduct runtime session preamble routine w).1.bind fun r => settled r.1 r.2,
        (conduct runtime session preamble routine w).2) := by
  rw [Attempt.bind_apply, conduct]
  obtain ⟨⟨result, w'⟩, hstart⟩ : ∃ r, start runtime session preamble w = r := ⟨_, rfl⟩
  rw [hstart]
  cases result with
  | error e => rfl
  | ok c =>
    dsimp only [finish, Except.bind]
    generalize routine.run (c, w') = left
    obtain ⟨used, c', w''⟩ := left
    dsimp only
    generalize c'.release w'' = released
    obtain ⟨closing, w₃⟩ := released
    cases used <;> cases closing <;> rfl

end Context

end

/-! ### What the calls are -/

section

variable {s α β : Type} {id : ContextId} {session : s} {calls : List (SessionCall s)} {isOpen : Bool}

namespace Routine

/-- A session is closed by its last call, if at all. -/
theorem Course.talk {routine : Routine α} {a : α} (h : Course id session routine calls a isOpen) :
    ∃ talk : List (SessionCall s), (∀ call ∈ talk, ∃ source answer, call = .evaluated session source answer) ∧
      (isOpen = true ∧ calls = talk ∨ isOpen = false ∧ ∃ closing, calls = talk ++ [.closed session closing]) := by
  induction h with
  | done a => exact ⟨[], by simp, Or.inl ⟨rfl, rfl⟩⟩
  | blank hop htext hrest ih => exact ih
  | @sent op text next calls a isOpen htext answer hrest ih =>
    obtain ⟨talk, htalk, hcalls⟩ := ih
    refine ⟨.evaluated session text answer :: talk, ?_, ?_⟩
    · intro call hcall
      rcases List.mem_cons.1 hcall with rfl | hcall
      · exact ⟨text, answer, rfl⟩
      · exact htalk call hcall
    · rcases hcalls with ⟨hopen, rfl⟩ | ⟨hopen, closing, rfl⟩
      · exact Or.inl ⟨hopen, rfl⟩
      · exact Or.inr ⟨hopen, closing, rfl⟩
  | closed next closing => exact ⟨[], by simp, Or.inr ⟨rfl, closing, rfl⟩⟩

theorem Course.of_map {f : α → β} {routine : Routine α} {b : β}
    (h : Course id session (routine.map f) calls b isOpen) :
    ∃ a, Course id session routine calls a isOpen ∧ f a = b := by
  induction routine generalizing calls with
  | done a =>
    cases h with
    | done => exact ⟨a, .done a, rfl⟩
  | act op next ih =>
    have hact : Course id session (.act op fun r => (next r).map f) calls b isOpen := h
    cases hact with
    | blank hop htext hrest =>
      obtain ⟨a, ha, hf⟩ := ih _ hrest
      exact ⟨a, .blank hop htext ha, hf⟩
    | sent htext answer hrest =>
      obtain ⟨a, ha, hf⟩ := ih _ hrest
      exact ⟨a, .sent htext answer ha, hf⟩
    | closed _ closing => exact ⟨_, .closed next closing, (refused_map f id _).symm⟩

/-- **Behind the first close** every operation is refused. -/
theorem Course.behind_close {before after : List ContextOp} (hbefore : ∀ op ∈ before, op.isClose = false)
    {results : List (Except Error Value)}
    (h : Course id session (inOrder (before ++ .close :: after)) calls results isOpen) :
    isOpen = false ∧ ∃ (early : List (Except Error Value)) (closing : Except Error Unit),
      results = early ++ (closing.map fun _ => .null) :: after.map (·.refused id) ∧
        early.length = before.length := by
  induction before generalizing calls results with
  | nil =>
    have hact : Course id session (.act .close fun r => (inOrder after).map (r :: ·)) calls results isOpen := h
    cases hact with
    | blank hop => cases hop
    | sent htext => cases htext
    | closed _ closing =>
      refine ⟨rfl, [], closing, ?_, rfl⟩
      rw [refused_map, refused_inOrder, List.nil_append]
  | cons op before ih =>
    have hact : Course id session (.act op fun r => (inOrder (before ++ .close :: after)).map (r :: ·)) calls
      results isOpen := h
    have hlater := fun op hop => hbefore op (List.mem_cons_of_mem _ hop)
    have hrest : ∀ {calls : List (SessionCall s)} {r : Except Error Value},
        Course id session ((inOrder (before ++ .close :: after)).map (r :: ·)) calls results isOpen →
        isOpen = false ∧ ∃ (early : List (Except Error Value)) (closing : Except Error Unit),
          results = early ++ (closing.map fun _ => .null) :: after.map (·.refused id) ∧
            early.length = (op :: before).length := by
      intro calls r hrest
      obtain ⟨later, hcourse, rfl⟩ := hrest.of_map
      obtain ⟨hopen, early, closing, rfl, hlength⟩ := ih hlater hcourse
      exact ⟨hopen, r :: early, closing, rfl, congrArg (· + 1) hlength⟩
    cases hact with
    | blank _ _ h => exact hrest h
    | sent _ _ h => exact hrest h
    | closed => cases hbefore .close List.mem_cons_self

end Routine

namespace Context

/-- **A session is closed exactly once**, and by the last of its calls; the first is the preamble. -/
theorem Story.closes_once {preamble : String} {routine : Routine α} {result : Except Error (α × Except Error Unit)}
    (h : Story id session preamble routine result calls) :
    ∃ (first : Except Error Value) (talk : List (SessionCall s)) (closing : Except Error Unit),
      calls = .evaluated session preamble first :: (talk ++ [.closed session closing]) ∧
        ∀ call ∈ talk, ∃ source answer, call = .evaluated session source answer := by
  cases h with
  | failed e closing => exact ⟨.error e, [], closing, rfl, by simp⟩
  | @released v calls a h closing =>
    obtain ⟨talk, htalk, ⟨-, rfl⟩ | ⟨hopen, -⟩⟩ := h.talk
    · exact ⟨.ok v, calls, closing, rfl, htalk⟩
    · cases hopen
  | @closed v calls a h =>
    obtain ⟨talk, htalk, ⟨hopen, -⟩ | ⟨-, closing, rfl⟩⟩ := h.talk
    · cases hopen
    · exact ⟨.ok v, talk, closing, rfl, htalk⟩

end Context

end

/-! ### Runtimes -/

namespace Bridge.Runtime

open Channel (Peer)
open Launch (World)

variable {ω π α : Type} [Peer π]

/-- A runtime fails before there is a session, or it has a session and opens a context on it. -/
theorem compile_cases (r : Runtime ω π) (w : World ω π) :
    (∃ (e : Error) (r' : Runtime ω π) (w' : World ω π), ∀ preamble, compile preamble (r, w) = (.error e, r', w')) ∨
    ∃ (session : PipeSession) (r' : Runtime ω π) (w' : World ω π), ∀ preamble, compile preamble (r, w) =
      ((Context.start r.name session preamble w').1, r', (Context.start r.name session preamble w').2) := by
  cases r with
  | disabled => exact Or.inl ⟨.disabled, disabled, w, fun _ => rfl⟩
  | external x =>
    have hname := x.descriptor_probed w
    cases hp : (x.probed w).1.probe with
    | found launcher manager =>
      have hstarted := External.descriptor_start (x.probed w).1 (x.probed w).2.takeId.2
      obtain ⟨⟨result, y, w'⟩, hs⟩ : ∃ q, External.start ((x.probed w).1, (x.probed w).2.takeId.2) = q := ⟨_, rfl⟩
      rw [hs, hname] at hstarted
      cases result with
      | error e =>
        refine Or.inl ⟨e, external y, w', fun preamble => ?_⟩
        simp only [compile, External.compile_of_found hp, External.openContext, hs]
      | ok handle =>
        refine Or.inr ⟨⟨(x.probed w).2.takeId.1, y.descriptor.syntaxMarker, handle⟩, external y, w', ?_⟩
        intro preamble
        have hrname : (external x : Runtime ω π).name = y.descriptor.name := congrArg Descriptor.name hstarted.symm
        simp only [compile, External.compile_of_found hp, External.openContext, hs, hrname]
    | _ =>
      have hnone : (x.probed w).1.probe.manager? = none := by rw [hp]; rfl
      refine Or.inl ⟨.runtimeUnavailable (x.probed w).1.descriptor.name, external (x.probed w).1,
        (x.probed w).2, fun preamble => ?_⟩
      simp only [compile, External.compile_of_not_found hnone]

/-- How a runtime uses a context of its own: there is no session for it, or there is one, and then the use is the
conduct of a context on that session, settled. -/
def UsesContexts (α : Type) (r : Runtime ω π) (w : World ω π) : Prop :=
  (∃ (e : Error) (r' : Runtime ω π) (w' : World ω π), ∀ (preamble : String)
    (routine : Routine (Except Error α)), withContext preamble routine.run (r, w) = (.error e, r', w')) ∨
  ∃ (session : PipeSession) (r' : Runtime ω π) (w' : World ω π), ∀ (preamble : String)
    (routine : Routine (Except Error α)), withContext preamble routine.run (r, w) =
      ((Context.conduct r.name session preamble routine w').1.bind fun c => Context.settled c.1 c.2, r',
        (Context.conduct r.name session preamble routine w').2)

theorem usesContexts (r : Runtime ω π) (w : World ω π) : r.UsesContexts α w := by
  rcases compile_cases r w with ⟨e, r', w', hcompile⟩ | ⟨session, r', w', hcompile⟩
  · refine Or.inl ⟨e, r', w', fun preamble routine => ?_⟩
    exact Attempt.bind_apply_of_error (hcompile preamble) _
  · refine Or.inr ⟨session, r', w', fun preamble routine => ?_⟩
    have hfinish := Context.finish_conduct r.name session preamble routine w'
    have hopened := hcompile preamble
    rw [Attempt.bind_apply] at hfinish
    generalize Context.start r.name session preamble w' = opened at hfinish hopened
    obtain ⟨result, w''⟩ := opened
    obtain ⟨hresult, hleft⟩ := Prod.mk.inj hfinish
    rw [← hresult, ← hleft]
    cases result with
    | error e => exact Attempt.bind_apply_of_error hopened _
    | ok c => exact Attempt.bind_apply_of_ok hopened _

theorem exec_eq (source : String) : (exec source : Attempt (Runtime ω π × World ω π) Value) =
    withContext "" (Routine.act (.exec source) .done).run := by
  rw [Routine.run_one, exec, ContextOp.run]

theorem eval_eq (source : String) : (eval source : Attempt (Runtime ω π × World ω π) Value) =
    withContext "" (Routine.act (.eval source) .done).run := by
  rw [Routine.run_one, eval, ContextOp.run]

end Bridge.Runtime

/-! ### All of it -/

namespace Context

open Channel (Peer)
open Launch (World)
open Bridge (Runtime)

variable {s σ ω π α : Type} [Session s σ] [Peer π]

/-- What is true of a context in which a routine is followed. -/
structure Lives (runtime : String) (session : s) (preamble : String) (routine : Routine α) (w : σ) : Prop where
  /-- The log of the session changes nothing. -/
  unobserved : conduct runtime session preamble routine w =
    ((conduct runtime session preamble routine (⟨w, []⟩ : Logged s σ)).1,
      (conduct runtime session preamble routine (⟨w, []⟩ : Logged s σ)).2.world)
  story : Story (Session.id σ session) session preamble routine (conduct runtime session preamble routine w).1
    (conduct runtime session preamble routine (⟨w, []⟩ : Logged s σ)).2.calls
  /-- The session receives the preamble first, and it is closed once, at the end. -/
  once : ∃ (first : Except Error Value) (talk : List (SessionCall s)) (closing : Except Error Unit),
    (conduct runtime session preamble routine (⟨w, []⟩ : Logged s σ)).2.calls =
        .evaluated session preamble first :: (talk ++ [.closed session closing]) ∧
      ∀ call ∈ talk, ∃ source answer, call = .evaluated session source answer

theorem lives_conduct (runtime : String) (session : s) (preamble : String) (routine : Routine α) (w : σ) :
    Lives runtime session preamble routine w := by
  obtain ⟨hresult, hworld⟩ :=
    conduct_alike sessionsAlike_logged runtime session preamble routine (⟨w, []⟩ : Logged s σ) w rfl
  have hstory := story_conduct runtime session preamble routine w
  have honce := hstory.closes_once
  refine ⟨Prod.ext hresult.symm hworld.symm, ?_, honce⟩
  rw [← hresult]
  exact hstory

/-- What an operation behind the first close gives, if one operation is done after the other. -/
theorem refused_behind_close (runtime : String) (session : s) (preamble : String) (w : σ)
    {before after : List ContextOp} (hbefore : ∀ op ∈ before, op.isClose = false)
    {results : List (Except Error Value)} {released : Except Error Unit}
    (h : (conduct runtime session preamble (.inOrder (before ++ .close :: after)) w).1 =
      .ok (results, released)) :
    released = .ok () ∧ ∃ (early : List (Except Error Value)) (closing : Except Error Unit),
      results = early ++ (closing.map fun _ => .null) :: after.map (·.refused (Session.id σ session)) ∧
        early.length = before.length := by
  have hstory := (lives_conduct runtime session preamble (.inOrder (before ++ .close :: after)) w).story
  rw [h] at hstory
  generalize (conduct runtime session preamble (.inOrder (before ++ .close :: after))
    (⟨w, []⟩ : Logged s σ)).2.calls = calls at hstory
  cases hstory with
  | released hcourse => cases (hcourse.behind_close hbefore).1
  | closed hcourse => exact ⟨rfl, (hcourse.behind_close hbefore).2⟩

/-- **The lifecycle of a context**, on any session and whatever it answers.  The session receives the preamble
first, then the texts of what is done, and it is closed once, at the end: if the preamble fails, when the context
is closed, or when it is released.  Behind a close nothing reaches the session: what would send a text fails, and
the rest succeeds.  What a runtime does in a context of its own is closed before it comes to anything, and it comes
to the first error there is. -/
theorem lifecycle :
    (∀ (runtime : String) (session : s) (preamble : String) (w : σ),
      (∀ routine : Routine α, Lives runtime session preamble routine w) ∧
      (∀ (before after : List ContextOp) (results : List (Except Error Value)) (released : Except Error Unit),
        (∀ op ∈ before, op.isClose = false) →
        (conduct runtime session preamble (.inOrder (before ++ .close :: after)) w).1 = .ok (results, released) →
        released = .ok () ∧ ∃ (early : List (Except Error Value)) (closing : Except Error Unit),
          results = early ++ (closing.map fun _ => .null) :: after.map (·.refused (Session.id σ session)) ∧
            early.length = before.length) ∧
      ∀ routine : Routine (Except Error α),
        (start runtime session preamble >>= fun c => c.finish routine.run) w =
          ((conduct runtime session preamble routine w).1.bind fun c => settled c.1 c.2,
            (conduct runtime session preamble routine w).2)) ∧
    ∀ (r : Runtime ω π) (w : World ω π), r.UsesContexts α w ∧ ∀ source : String,
      Runtime.exec source (r, w) = Runtime.withContext "" (Routine.act (.exec source) .done).run (r, w) ∧
      Runtime.eval source (r, w) = Runtime.withContext "" (Routine.act (.eval source) .done).run (r, w) := by
  refine ⟨fun runtime session preamble w => ⟨?lives, ?refused, ?settled⟩, fun r w => ⟨?uses, ?once⟩⟩
  case lives => exact fun routine => lives_conduct runtime session preamble routine w
  case refused =>
    intro before after results released hbefore h
    exact refused_behind_close runtime session preamble w hbefore h
  case settled => exact fun routine => finish_conduct runtime session preamble routine w
  case uses => exact r.usesContexts w
  case once =>
    intro source
    exact ⟨congrFun (Runtime.exec_eq source) (r, w), congrFun (Runtime.eval_eq source) (r, w)⟩

end Context

end EnginePipe
