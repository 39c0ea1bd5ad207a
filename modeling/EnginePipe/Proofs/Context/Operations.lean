import EnginePipe.Context.Basic

/-!
# Operations on contexts

What is done with a context goes through its session, and so it goes alike in any two worlds whose
sessions go alike.  An evaluation sends the text `ContextOp.text?`, if there is one, and what comes back
is unpacked.

* `ContextOp`, `Body`: an operation on a context, and a body that does one after another.
* `ContextOp.run_eq`, `ContextOp.run_of_closed`: what an operation sends and what it gives.
* `ContextOp.run_alike`, `Body.run_alike`, `Context.start_alike`, `Context.finish_alike`: **where
  sessions go alike, so does all that is done with contexts**.
-/

namespace EnginePipe

open Json (Value)

/-! ### Attempts that go alike -/

/-- From states in a relation two attempts give the same, and leave states in the relation. -/
def Attempt.Alike {σ τ α : Type} (R : σ → τ → Prop) (x : Attempt σ α) (y : Attempt τ α) : Prop :=
  ∀ s t, R s t → (x s).1 = (y t).1 ∧ R (x s).2 (y t).2

/-- The relation on states that have the same thing beside them. -/
def Beside {σ τ γ : Type} (R : σ → τ → Prop) (a : γ × σ) (b : γ × τ) : Prop := a.1 = b.1 ∧ R a.2 b.2

/-- What goes alike gives one answer. -/
theorem exists_answer {σ τ α : Type} {R : σ → τ → Prop} {a : α × σ} {b : α × τ} (h : a.1 = b.1 ∧ R a.2 b.2) :
    ∃ answer s t, a = (answer, s) ∧ b = (answer, t) ∧ R s t :=
  ⟨a.1, a.2, b.2, rfl, Prod.ext h.1.symm rfl, h.2⟩

namespace Attempt.Alike

variable {σ τ α β γ : Type} {R : σ → τ → Prop} {x : Attempt σ α} {y : Attempt τ α}

theorem pure (a : α) : Alike R (Pure.pure a) (Pure.pure a) := fun _ _ h => ⟨rfl, h⟩

theorem throw (e : Error) : Alike R (MonadExcept.throw e : Attempt σ α) (MonadExcept.throw e) :=
  fun _ _ h => ⟨rfl, h⟩

theorem bind (hx : Alike R x y) {f : α → Attempt σ β} {g : α → Attempt τ β}
    (hf : ∀ a, Alike R (f a) (g a)) : Alike R (x >>= f) (y >>= g) := by
  intro s t h
  obtain ⟨result, s', t', hs, ht, hst⟩ := exists_answer (hx s t h)
  rw [bind_apply, bind_apply, hs, ht]
  cases result with
  | ok a => exact hf a s' t' hst
  | error e => exact ⟨rfl, hst⟩

end Attempt.Alike

/-! ### Operations -/

/-- Something that is done with a context.  Dropping a context closes it. -/
inductive ContextOp where
  | evaluateString (source : String)
  | eval (source : String)
  | exec (source : String)
  | call (path : String) (arguments : List Value)
  | close
deriving Repr

/-- What is done with a context step by step; each step may depend on what the ones before it gave. -/
inductive Body where
  | done (result : Except Error Value)
  | act (op : ContextOp) (next : Except Error Value → Body)

namespace ContextOp

variable {s σ : Type} [Session s σ]

/-- Does it; closing gives null. -/
def run : ContextOp → Attempt (Context s × σ) Value
  | .evaluateString source => Context.lift fun c => c.evaluateString source
  | .eval source => Context.lift fun c => c.eval source
  | .exec source => Context.lift fun c => c.exec source
  | .call path arguments => Context.lift fun c => c.call path arguments
  | .close => do
    Context.close
    pure .null

/-- The text that is sent for an expression, unless it is blank. -/
def wrapped? (source : String) : Option String :=
  if Source.isBlank (Source.trimmed source) then none else some (Source.asJson (Source.trimmed source))

/-- The text that is sent, if there is one. -/
def text? : ContextOp → Option String
  | .evaluateString source => some source
  | .eval source => wrapped? source
  | .exec source => wrapped? (Source.asFunction source)
  | .call path arguments => wrapped? (Source.applied path arguments)
  | .close => none

/-- What is made of what comes back. -/
def unpacked (op : ContextOp) (r : Except Error Value) : Except Error Value :=
  match op with
  | .evaluateString _ => r
  | _ => r.bind Context.unpack

/-- Whether it closes the context. -/
def isClose : ContextOp → Bool
  | .close => true
  | _ => false

/-- What it gives where the context is closed. -/
def refused (op : ContextOp) (context : ContextId) : Except Error Value :=
  match op.text? with
  | none => .ok .null
  | some _ => .error (.contextClosed context)

/-- The context after the operation. -/
def left (op : ContextOp) (c : Context s) : Context s := if op.isClose then c.closed else c

end ContextOp

/-- Does the steps of a body. -/
def Body.run {s σ : Type} [Session s σ] : Body → Attempt (Context s × σ) Value
  | .done result => fun w => (result, w)
  | .act op next => fun w => (next (op.run w).1).run (op.run w).2

theorem Body.run_act {s σ : Type} [Session s σ] (op : ContextOp) (next : Except Error Value → Body)
    (w : Context s × σ) : (Body.act op next).run w = (next (op.run w).1).run (op.run w).2 := rfl

/-! ### What an operation sends and gives -/

section

variable {s σ : Type} [Session s σ]

theorem Context.start_of_ok {runtime : String} {session : s} {preamble : String} {v : Value} {w w' : σ}
    (h : Context.evaluateString ⟨Session.id σ session, runtime, some session⟩ preamble w = (.ok v, w')) :
    start runtime session preamble w = (.ok ⟨Session.id σ session, runtime, some session⟩, w') := by
  rw [start, h]

theorem Context.start_of_error {runtime : String} {session : s} {preamble : String} {e : Error} {w w' : σ}
    (h : Context.evaluateString ⟨Session.id σ session, runtime, some session⟩ preamble w = (.error e, w')) :
    start runtime session preamble w =
      (.error e, (release (⟨Session.id σ session, runtime, some session⟩ : Context s) w').2) := by
  rw [start, h]

theorem Context.eval_eq (c : Context s) (source : String) (w : σ) :
    c.eval source w = match ContextOp.wrapped? source with
      | none => (.ok .null, w)
      | some text => ((c.evaluateString text w).1.bind unpack, (c.evaluateString text w).2) := by
  rw [ContextOp.wrapped?]
  by_cases h : Source.isBlank (Source.trimmed source)
  · rw [if_pos h, eval_of_blank c h]
    rfl
  · rw [if_neg h, eval]
    simp only [if_neg h]
    obtain ⟨⟨result, w'⟩, hr⟩ : ∃ r, c.evaluateString (Source.asJson (Source.trimmed source)) w = r :=
      ⟨_, rfl⟩
    rw [hr]
    cases result with
    | ok encoded => exact Attempt.bind_apply_of_ok hr _
    | error e => exact Attempt.bind_apply_of_error hr _

/-- Every operation but closing sends its text and unpacks what comes back. -/
theorem ContextOp.run_eq (c : Context s) {op : ContextOp} (hop : op.isClose = false) (w : σ) :
    op.run (c, w) = match op.text? with
      | none => (.ok .null, c, w)
      | some text => (op.unpacked (c.evaluateString text w).1, c, (c.evaluateString text w).2) := by
  cases op with
  | evaluateString source => rfl
  | eval source =>
    rw [run, Context.lift, Context.eval_eq, text?]
    cases wrapped? source <;> rfl
  | exec source =>
    rw [run, Context.lift, Context.exec, Context.eval_eq, text?]
    cases wrapped? (Source.asFunction source) <;> rfl
  | call path arguments =>
    rw [run, Context.lift, Context.call, Context.eval_eq, text?]
    cases wrapped? (Source.applied path arguments) <;> rfl
  | close => cases hop

theorem ContextOp.run_close (c : Context s) (w : σ) :
    (ContextOp.close.run (c, w)) =
      ((c.release w).1.map fun _ => .null, c.closed, (c.release w).2) := by
  rw [run]
  obtain ⟨⟨result, w'⟩, hr⟩ : ∃ r, c.release w = r := ⟨_, rfl⟩
  have hclose : Context.close (c, w) = (result, c.closed, w') := by
    rw [Context.close, hr]
  rw [hr]
  cases result with
  | ok _ => exact Attempt.bind_apply_of_ok hclose _
  | error e => exact Attempt.bind_apply_of_error hclose _

theorem Context.release_of_closed {c : Context s} (hc : c.session = none) (w : σ) :
    c.release w = (.ok (), w) := by
  rw [release, hc]
  rfl

/-- **An operation on a closed context does nothing.** -/
theorem ContextOp.run_of_closed {c : Context s} (hc : c.session = none) (op : ContextOp) (w : σ) :
    op.run (c, w) = (op.refused c.id, c, w) := by
  by_cases hop : op.isClose
  · cases op with
    | close =>
      have hclosed : c.closed = c := by rw [Context.closed, ← hc]
      rw [run_close, Context.release_of_closed hc, hclosed]
      rfl
    | _ => cases hop
  · rw [Bool.not_eq_true] at hop
    rw [run_eq c hop, refused]
    cases op.text? with
    | none => rfl
    | some text =>
      dsimp only
      rw [Context.evaluateString_of_closed hc]
      cases op <;> rfl

end

/-! ### Sessions that go alike -/

/-- Sessions go alike in two worlds. -/
structure SessionsAlike {σ τ : Type} (s : Type) [Session s σ] [Session s τ] (R : σ → τ → Prop) : Prop where
  id : ∀ session : s, Session.id σ session = Session.id τ session
  evaluate : ∀ (session : s) source,
    Attempt.Alike R (Session.evaluate session source) (Session.evaluate session source)
  close : ∀ session : s, Attempt.Alike R (Session.close session) (Session.close session)

variable {s σ τ α : Type} [Session s σ] [Session s τ] {R : σ → τ → Prop} (hS : SessionsAlike s R)

include hS

namespace Context

theorem evaluateString_alike (c : Context s) (source : String) :
    Attempt.Alike R (c.evaluateString source) (c.evaluateString source) := by
  rw [evaluateString, evaluateString]
  cases c.session with
  | none => exact .throw _
  | some session => exact hS.evaluate session source

theorem eval_alike (c : Context s) (source : String) :
    Attempt.Alike R (c.eval source) (c.eval source) := by
  intro a b h
  rw [eval_eq, eval_eq]
  cases ContextOp.wrapped? source with
  | none => exact ⟨rfl, h⟩
  | some text =>
    obtain ⟨hr, hab⟩ := evaluateString_alike hS c text a b h
    exact ⟨congrArg (Except.bind · unpack) hr, hab⟩

theorem release_alike (c : Context s) : Attempt.Alike R c.release c.release := by
  rw [release, release]
  cases c.session with
  | none => exact .pure ()
  | some session => exact hS.close session

theorem start_alike (runtime : String) (session : s) (preamble : String) :
    Attempt.Alike R (start runtime session preamble) (start runtime session preamble) := by
  intro a b h
  have hid := hS.id session
  obtain ⟨result, a', b', ha, hb, hab⟩ := exists_answer
    (evaluateString_alike hS ⟨Session.id σ session, runtime, some session⟩ preamble a b h)
  rw [hid] at ha hb
  cases result with
  | ok v =>
    rw [start_of_ok (hid.symm ▸ ha), start_of_ok hb, hid]
    exact ⟨rfl, hab⟩
  | error e =>
    rw [start_of_error (hid.symm ▸ ha), start_of_error hb, hid]
    exact ⟨rfl, (release_alike hS _ a' b' hab).2⟩

theorem finish_alike {c : Context s} {x : Attempt (Context s × σ) α} {y : Attempt (Context s × τ) α}
    (h : Attempt.Alike (Beside R) x y) : Attempt.Alike R (c.finish x) (c.finish y) := by
  intro a b hab
  obtain ⟨result, ⟨c', a'⟩, ⟨c'', b'⟩, hx, hy, hc, hab'⟩ := exists_answer (h (c, a) (c, b) ⟨rfl, hab⟩)
  have hc' : c' = c'' := hc
  subst hc'
  obtain ⟨released, a'', b'', ha, hb, hend⟩ := exists_answer (release_alike hS c' a' b' hab')
  rw [finish, finish, hx, hy]
  dsimp only
  rw [ha, hb]
  cases result <;> cases released <;> exact ⟨rfl, hend⟩

end Context

theorem ContextOp.run_alike (op : ContextOp) :
    Attempt.Alike (Beside R) (op.run (s := s)) (op.run (s := s)) := by
  rintro ⟨c, a⟩ ⟨c', b⟩ ⟨hc, hab⟩
  have hc' : c = c' := hc
  subst hc'
  by_cases hop : op.isClose
  · cases op with
    | close =>
      obtain ⟨hr, hend⟩ := Context.release_alike hS c a b hab
      rw [run_close, run_close, hr]
      exact ⟨rfl, rfl, hend⟩
    | _ => cases hop
  · rw [Bool.not_eq_true] at hop
    rw [run_eq c hop, run_eq c hop]
    cases op.text? with
    | none => exact ⟨rfl, rfl, hab⟩
    | some text =>
      obtain ⟨hr, hend⟩ := Context.evaluateString_alike hS c text a b hab
      exact ⟨congrArg op.unpacked hr, rfl, hend⟩

theorem Body.run_alike (body : Body) :
    Attempt.Alike (Beside R) (body.run (s := s)) (body.run (s := s)) := by
  induction body with
  | done result => exact fun _ _ h => ⟨rfl, h⟩
  | act op next ih =>
    intro a b hab
    obtain ⟨hr, hend⟩ := ContextOp.run_alike hS op a b hab
    rw [run_act, run_act, hr]
    exact ih _ _ _ hend

end EnginePipe
