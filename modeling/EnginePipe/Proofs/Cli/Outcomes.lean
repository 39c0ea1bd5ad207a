import EnginePipe.Cli.Run
import EnginePipe.Proofs.Bridge.Cleanup
import EnginePipe.Proofs.Context.Values
import EnginePipe.Proofs.Json.Grammar.Layout

/-!
# What commands come to

A command that evaluates something ends in one of three ways: something that it needs cannot be read, it is
refused, or a context gives a value.  Which of these it is depends on what the command asks for and not on what
is printed (`Ends`); what stands on standard output and the exit code follow from it.  On every way the
processes that were started are closed in the end.

* `Ends`: the ways to end.
* `dispatch_of_ends`, `exists_ends`: **a command prints what belongs to its end, and has one**.
* `dispatch_closed`: **no process that a command starts outlives it**.
* `runOn_accounts`: all of this together, for output in JSON form.
-/

namespace EnginePipe.Cli

open Bridge (Desk Entry Registration Registry Runtime RuntimeId Selector)
open Channel (Peer)
open Json (IsText Value)
open Launch (ProcessId Station World)

/-! ### The ways to end -/

/-- An operation, and the script that is evaluated before it if that can be read. -/
def prepare (host : Host) (path : Option String) (op : ContextOp) : Except Failure (String × ContextOp) :=
  (readPreamble host path).map (·, op)

/-- What a command evaluates and the script before it, if all that it needs can be read; nothing for a command
that does not evaluate. -/
def Command.preparation? [Build] (stdin : List UInt8) (host : Host) :
    Command → Option (Except Failure (String × ContextOp))
  | eval arguments => some do prepare host arguments.preamble (.eval (← readSource stdin arguments.source))
  | exec arguments => some do prepare host arguments.preamble (.exec (← readSource stdin arguments.source))
  | call arguments => some do
    prepare host arguments.preamble (.call arguments.function (← arguments.arguments.mapM readArgument))
  | runtimes => none

/-- How a command ends that evaluates something. -/
inductive Ending where
  /-- Something that it needs cannot be read. -/
  | beforehand (f : Failure)
  /-- No runtime can be chosen, or what is done in its context fails. -/
  | refused (e : Error)
  /-- What is done in a context of a runtime has a value. -/
  | gave (runtime : String) (value : Value)

/-- The end of what was done in a context of a runtime. -/
def Ending.of (runtime : String) : Except Error Value → Ending
  | .error e => .refused e
  | .ok value => .gave runtime value

theorem Ending.of_ne_beforehand (runtime : String) (result : Except Error Value) (f : Failure) :
    Ending.of runtime result ≠ .beforehand f := by
  cases result <;> simp [Ending.of]

theorem Ending.of_eq_gave {runtime name : String} {result : Except Error Value} {value : Value}
    (h : Ending.of runtime result = .gave name value) : result = .ok value := by
  cases result with
  | error e => cases h
  | ok given =>
    cases h
    rfl

/-- What is printed at an end before a failure is, and whether the command succeeds. -/
def Ending.printout (format : Format) : Ending → Printout
  | .beforehand f => .failed f
  | .refused e => .failed (.ofError e)
  | .gave runtime value => { stdout := renderValue format runtime value ++ "\n" }

/-- What chooses the runtime of an invocation, among those that are made for it. -/
def chooser {π : Type} (registrations : List (Registration Host π)) (invocation : Invocation) (d : Desk Host π) :
    Selector RuntimeId := invocation.selector (d.table registrations).1 d.world.host

/-- How an invocation ends. -/
inductive Ends [Build] {π : Type} [Peer π] (registrations : List (Registration Host π)) (stdin : List UInt8)
    (invocation : Invocation) (d : Desk Host π) : Ending → Prop
  | beforehand {f : Failure} (h : invocation.command.preparation? stdin d.world.host = some (.error f)) :
      Ends registrations stdin invocation d (.beforehand f)
  | unselected {preamble : String} {op : ContextOp} {e : Error} {d' : Desk Host π}
      (h : invocation.command.preparation? stdin d.world.host = some (.ok (preamble, op)))
      (hs : (chooser registrations invocation d).select [] (d.table registrations).2 = (.error e, d')) :
      Ends registrations stdin invocation d (.refused e)
  | chosen {preamble : String} {op : ContextOp} {id : RuntimeId} {r : Runtime Host π} {d' : Desk Host π}
      (h : invocation.command.preparation? stdin d.world.host = some (.ok (preamble, op)))
      (hs : (chooser registrations invocation d).select [] (d.table registrations).2 = (.ok id, d'))
      (hr : d'.get? id = some r) :
      Ends registrations stdin invocation d (.of r.name (Runtime.withContext preamble op.run (r, d'.world)).1)

/-! ### What cannot be read -/

theorem exists_of_mapM_error {α β ε : Type} {f : α → Except ε β} {e : ε} {xs : List α}
    (h : xs.mapM f = .error e) : ∃ x ∈ xs, f x = .error e := by
  induction xs with
  | nil => cases h
  | cons x xs ih =>
    rw [List.mapM_cons] at h
    cases hx : f x with
    | error e' =>
      rw [hx] at h
      cases h
      exact ⟨x, List.mem_cons_self, hx⟩
    | ok b =>
      rw [hx] at h
      cases hxs : xs.mapM f with
      | error e' =>
        rw [hxs] at h
        cases h
        obtain ⟨y, hy, hf⟩ := ih hxs
        exact ⟨y, List.mem_cons_of_mem x hy, hf⟩
      | ok bs =>
        rw [hxs] at h
        cases h

theorem code_of_readSource {f : Failure} {stdin : List UInt8} {source : Option String}
    (h : readSource stdin source = .error f) : f.code = Failure.generalCode := by
  unfold readSource at h
  split at h
  · cases h
  · split at h <;> cases h
    rfl

theorem code_of_readPreamble {f : Failure} {host : Host} {path : Option String}
    (h : readPreamble host path = .error f) : f.code = Failure.generalCode := by
  unfold readPreamble at h
  split at h
  · cases h
  · split at h <;> cases h
    rfl

theorem code_of_readArgument [Build] {f : Failure} {argument : String} (h : readArgument argument = .error f) :
    f.code = Failure.generalCode := by
  unfold readArgument at h
  split at h <;> cases h
  rfl

theorem bind_eq_error_iff {α β ε : Type} {x : Except ε α} {f : α → Except ε β} {e : ε} :
    (x >>= f) = .error e ↔ x = .error e ∨ ∃ a, x = .ok a ∧ f a = .error e := by
  cases x with
  | error e' => simp [bind, Except.bind]
  | ok a => simp [bind, Except.bind]

theorem bind_eq_ok_iff {α β ε : Type} {x : Except ε α} {f : α → Except ε β} {b : β} :
    (x >>= f) = .ok b ↔ ∃ a, x = .ok a ∧ f a = .ok b := by
  cases x with
  | error e' => simp [bind, Except.bind]
  | ok a => simp [bind, Except.bind]

theorem prepare_eq_error {host : Host} {path : Option String} {op : ContextOp} {f : Failure}
    (h : prepare host path op = .error f) : readPreamble host path = .error f := by
  unfold prepare at h
  cases hp : readPreamble host path with
  | error e =>
    rw [hp] at h
    cases h
    rfl
  | ok preamble =>
    rw [hp] at h
    cases h

theorem prepare_eq_ok {host : Host} {path : Option String} {op op' : ContextOp} {preamble : String}
    (h : prepare host path op = .ok (preamble, op')) : readPreamble host path = .ok preamble ∧ op = op' := by
  unfold prepare at h
  cases hp : readPreamble host path with
  | error e =>
    rw [hp] at h
    cases h
  | ok found =>
    rw [hp] at h
    cases h
    exact ⟨rfl, rfl⟩

/-! ### Evaluation -/

section

variable {π : Type} [Peer π] {selector : Selector RuntimeId} {path : Option String} {preamble : String}
  {op : Context PipeSession → Attempt (World Host π) Value} {d d' : Desk Host π}

theorem evaluate_of_unread {f : Failure} (h : readPreamble d.world.host path = .error f) (format : Format) :
    evaluate selector format path op d = (.failed f, d) := by
  rw [evaluate, h]

theorem evaluate_of_unselected {e : Error} (hp : readPreamble d.world.host path = .ok preamble)
    (hs : selector.select [] d = (.error e, d')) (format : Format) :
    evaluate selector format path op d = (.failed (.ofError e), d') := by
  rw [evaluate, hp]
  dsimp only
  rw [evaluateIn, Attempt.bind_apply_of_error hs]

/-- A desk after something was done in a context of one of its runtimes. -/
def acted (preamble : String) (op : Context PipeSession → Attempt (World Host π) Value) (id : RuntimeId)
    (r : Runtime Host π) (d : Desk Host π) : Desk Host π :=
  { d with
    world := (Runtime.withContext preamble (Context.lift op) (r, d.world)).2.2
    runtimes := d.runtimes.set id (Runtime.withContext preamble (Context.lift op) (r, d.world)).2.1 }

theorem evaluate_of_selected {id : RuntimeId} {r : Runtime Host π}
    (hp : readPreamble d.world.host path = .ok preamble) (hs : selector.select [] d = (.ok id, d'))
    (hr : d'.get? id = some r) (format : Format) : evaluate selector format path op d =
      ((Ending.of r.name (Runtime.withContext preamble (Context.lift op) (r, d'.world)).1).printout format,
        acted preamble op id r d') := by
  have hact : Desk.act id (Runtime.withContext preamble (Context.lift op)) d' =
      ((Runtime.withContext preamble (Context.lift op) (r, d'.world)).1, acted preamble op id r d') := by
    unfold Desk.act
    rw [Desk.step_of_get? hr]
    rfl
  have hname : (acted preamble op id r d').nameOf id = r.name := by
    rw [acted, Desk.nameOf, Desk.get?_set hr]
    exact Runtime.name_withContext preamble _ r d'.world
  rw [evaluate, hp]
  dsimp only
  rw [evaluateIn, Attempt.bind_apply_of_ok hs]
  cases hresult : (Runtime.withContext preamble (Context.lift op) (r, d'.world)).1 with
  | error e =>
    rw [hresult] at hact
    rw [Attempt.bind_apply_of_error hact]
    rfl
  | ok value =>
    rw [hresult] at hact
    have hget : ∀ d : Desk Host π, Attempt.get d = (.ok d, d) := fun _ => rfl
    rw [Attempt.bind_apply_of_ok hact, Attempt.bind_apply_of_ok (hget _), hname]
    rfl

/-! ### Preparing -/

variable {stdin : List UInt8} {command : Command} {f : Failure}

omit [Peer π] in
/-- No error of the bridge lies behind it if something cannot be read. -/
theorem code_of_preparation? [Build] {host : Host} (h : command.preparation? stdin host = some (.error f)) :
    f.code = Failure.generalCode := by
  cases command with
  | eval arguments =>
    rcases bind_eq_error_iff.1 (Option.some.inj h) with h | ⟨source, -, h⟩
    · exact code_of_readSource h
    · exact code_of_readPreamble (prepare_eq_error h)
  | exec arguments =>
    rcases bind_eq_error_iff.1 (Option.some.inj h) with h | ⟨source, -, h⟩
    · exact code_of_readSource h
    · exact code_of_readPreamble (prepare_eq_error h)
  | call arguments =>
    rcases bind_eq_error_iff.1 (Option.some.inj h) with h | ⟨values, -, h⟩
    · obtain ⟨argument, -, h⟩ := exists_of_mapM_error h
      exact code_of_readArgument h
    · exact code_of_readPreamble (prepare_eq_error h)
  | runtimes => cases h

/-- A command fails without a look at its runtimes if something that it needs cannot be read. -/
theorem task_of_unprepared [Build] (h : command.preparation? stdin d.world.host = some (.error f)) :
    command.task stdin = .error f ∨ ∃ task, command.task stdin = .ok task ∧
      ∀ selector format, task.perform selector format d = (.failed f, d) := by
  cases command with
  | eval arguments =>
    rcases bind_eq_error_iff.1 (Option.some.inj h) with h | ⟨source, hsource, h⟩
    · exact Or.inl (by rw [Command.task, h]; rfl)
    · refine Or.inr ⟨.eval arguments.preamble source, by rw [Command.task, hsource]; rfl, ?_⟩
      exact fun selector format => evaluate_of_unread (prepare_eq_error h) format
  | exec arguments =>
    rcases bind_eq_error_iff.1 (Option.some.inj h) with h | ⟨source, hsource, h⟩
    · exact Or.inl (by rw [Command.task, h]; rfl)
    · refine Or.inr ⟨.exec arguments.preamble source, by rw [Command.task, hsource]; rfl, ?_⟩
      exact fun selector format => evaluate_of_unread (prepare_eq_error h) format
  | call arguments =>
    refine Or.inr ⟨.call arguments, rfl, fun selector format => ?_⟩
    rw [Task.perform]
    rcases bind_eq_error_iff.1 (Option.some.inj h) with h | ⟨values, hvalues, h⟩
    · rw [h]
    · rw [hvalues]
      exact evaluate_of_unread (prepare_eq_error h) format
  | runtimes => cases h

/-- Otherwise it evaluates. -/
theorem task_of_prepared [Build] {operation : ContextOp} {host : Host}
    (h : command.preparation? stdin host = some (.ok (preamble, operation))) :
    ∃ (task : Task) (path : Option String) (op : Context PipeSession → Attempt (World Host π) Value),
      command.task stdin = .ok task ∧ readPreamble host path = .ok preamble ∧ operation.run = Context.lift op ∧
      ∀ selector format d, task.perform selector format d = evaluate selector format path op d := by
  cases command with
  | eval arguments =>
    obtain ⟨source, hsource, h⟩ := bind_eq_ok_iff.1 (Option.some.inj h)
    obtain ⟨hpreamble, rfl⟩ := prepare_eq_ok h
    exact ⟨.eval arguments.preamble source, arguments.preamble, fun c => c.eval source,
      by rw [Command.task, hsource]; rfl, hpreamble, by rw [ContextOp.run], fun _ _ _ => rfl⟩
  | exec arguments =>
    obtain ⟨source, hsource, h⟩ := bind_eq_ok_iff.1 (Option.some.inj h)
    obtain ⟨hpreamble, rfl⟩ := prepare_eq_ok h
    exact ⟨.exec arguments.preamble source, arguments.preamble, fun c => c.exec source,
      by rw [Command.task, hsource]; rfl, hpreamble, by rw [ContextOp.run], fun _ _ _ => rfl⟩
  | call arguments =>
    obtain ⟨values, hvalues, h⟩ := bind_eq_ok_iff.1 (Option.some.inj h)
    obtain ⟨hpreamble, rfl⟩ := prepare_eq_ok h
    refine ⟨.call arguments, arguments.preamble, fun c => c.call arguments.function values, rfl, hpreamble,
      by rw [ContextOp.run], fun selector format d => ?_⟩
    rw [Task.perform, hvalues]
  | runtimes => cases h

end

/-! ### Ends -/

section

variable [Build] {π : Type} [Peer π] {registrations : List (Registration Host π)} {stdin : List UInt8}
  {invocation : Invocation} {d : Desk Host π}

theorem dispatch_of_no_task {f : Failure} (h : invocation.command.task stdin = .error f) :
    dispatch registrations stdin invocation d = (.failed f, (d.table registrations).2) := by
  simp only [dispatch, h]

theorem dispatch_of_task {task : Task} (h : invocation.command.task stdin = .ok task) :
    dispatch registrations stdin invocation d =
      ((task.perform (chooser registrations invocation d) invocation.format (d.table registrations).2).1,
        (task.perform (chooser registrations invocation d) invocation.format
          (d.table registrations).2).2.shutdownAll (d.table registrations).1) := by
  have hworld := (d.table_spec registrations).1
  rw [chooser, ← hworld]
  simp only [dispatch, h]

/-- **A command prints what belongs to its end.** -/
theorem dispatch_of_ends {ending : Ending} (h : Ends registrations stdin invocation d ending) :
    (dispatch registrations stdin invocation d).1 = ending.printout invocation.format := by
  have hhost : (d.table registrations).2.world.host = d.world.host := by rw [(d.table_spec registrations).1]
  cases h with
  | beforehand h =>
    rw [← hhost] at h
    rcases task_of_unprepared h with htask | ⟨task, htask, hperform⟩
    · rw [dispatch_of_no_task htask]
      rfl
    · rw [dispatch_of_task htask, hperform]
      rfl
  | unselected h hs =>
    obtain ⟨task, path, op, htask, hpath, -, hperform⟩ := task_of_prepared (π := π) h
    rw [← hhost] at hpath
    rw [dispatch_of_task htask, hperform, evaluate_of_unselected hpath hs]
    rfl
  | chosen h hs hr =>
    obtain ⟨task, path, op, htask, hpath, hop, hperform⟩ := task_of_prepared (π := π) h
    rw [← hhost] at hpath
    rw [dispatch_of_task htask, hperform, evaluate_of_selected hpath hs hr, hop]

/-- **A command that evaluates has an end.** -/
theorem exists_ends (registrations : List (Registration Host π)) (stdin : List UInt8) {invocation : Invocation}
    (h : invocation.command ≠ .runtimes) (d : Desk Host π) :
    ∃ ending, Ends registrations stdin invocation d ending := by
  have hprepared : ∃ result, invocation.command.preparation? stdin d.world.host = some result := by
    cases hc : invocation.command with
    | runtimes => exact absurd hc h
    | _ => exact ⟨_, rfl⟩
  obtain ⟨result, hp⟩ := hprepared
  cases result with
  | error f => exact ⟨_, .beforehand hp⟩
  | ok prepared =>
    obtain ⟨⟨selected, d'⟩, hs⟩ :
      ∃ a, (chooser registrations invocation d).select [] (d.table registrations).2 = a := ⟨_, rfl⟩
    cases selected with
    | error e => exact ⟨_, .unselected hp hs⟩
    | ok id =>
      have hasked := Desk.asked_select (chooser registrations invocation d) [] (d.table registrations).2
      rw [hs] at hasked
      obtain ⟨r, hr⟩ := (d.table_spec registrations).2 id (Selector.mem_of_select hs)
      obtain ⟨r', hr', -⟩ := hasked.exists_get? hr
      exact ⟨_, .chosen hp hs hr'⟩

theorem Ends.unique {ending ending' : Ending} (h : Ends registrations stdin invocation d ending)
    (h' : Ends registrations stdin invocation d ending') : ending = ending' := by
  cases h with
  | beforehand h =>
    cases h' with
    | beforehand h' =>
      cases h.symm.trans h'
      rfl
    | unselected h' => cases h.symm.trans h'
    | chosen h' => cases h.symm.trans h'
  | unselected h hs =>
    cases h' with
    | beforehand h' => cases h.symm.trans h'
    | unselected _ hs' =>
      cases hs.symm.trans hs'
      rfl
    | chosen _ hs' => cases hs.symm.trans hs'
  | chosen h hs hr =>
    cases h' with
    | beforehand h' => cases h.symm.trans h'
    | unselected _ hs' => cases hs.symm.trans hs'
    | chosen h' hs' hr' =>
      cases h.symm.trans h'
      cases hs.symm.trans hs'
      cases hr.symm.trans hr'
      rfl

theorem Ends.code_beforehand {f : Failure} (h : Ends registrations stdin invocation d (.beforehand f)) :
    f.code = Failure.generalCode := by
  generalize hending : Ending.beforehand f = ending at h
  cases h with
  | beforehand h =>
    cases hending
    exact code_of_preparation? h
  | unselected => cases hending
  | chosen => exact absurd hending.symm (Ending.of_ne_beforehand _ _ f)

/-- A value that a command ends with is one that can be read. -/
theorem Ends.sound {runtime : String} {value : Value}
    (h : Ends registrations stdin invocation d (.gave runtime value)) : value.Sound Json.maxNesting := by
  generalize hending : Ending.gave runtime value = ending at h
  cases h with
  | beforehand => cases hending
  | unselected => cases hending
  | @chosen preamble op =>
    exact Runtime.yields_withContext preamble op.yields_run _ _ (Ending.of_eq_gave hending.symm)

/-! ### What is left running -/

omit [Build] in
theorem evaluate_owes {selector : Selector RuntimeId}
    (hthere : ∀ id ∈ selector.registry.runtimes, ∃ r, d.get? id = some r)
    {op : Context PipeSession → Attempt (World Host π) Value}
    (hop : ∀ c (w : World Host π), w.Serves (op c w).2) (format : Format) (path : Option String) :
    (evaluate selector format path op d).2.Owes selector.registry.runtimes d.world.pool.processes.length := by
  cases hp : readPreamble d.world.host path with
  | error f =>
    rw [evaluate_of_unread hp]
    exact d.owes_of_length
  | ok preamble =>
    have hasked := Desk.asked_select selector [] d
    obtain ⟨⟨selected, d'⟩, hs⟩ : ∃ a, selector.select [] d = a := ⟨_, rfl⟩
    rw [hs] at hasked
    cases selected with
    | error e =>
      rw [evaluate_of_unselected hp hs]
      exact hasked.owes
    | ok id =>
      have hmem := Selector.mem_of_select hs
      obtain ⟨_, hget⟩ := hthere id hmem
      obtain ⟨r, hr, -⟩ := hasked.exists_get? hget
      rw [evaluate_of_selected hp hs hr, ← hasked.pool]
      intro p hp
      rcases Runtime.withContext_started hop preamble r d'.world hp with hslot | hclosed
      · exact Or.inr ⟨id, hmem, _, Desk.get?_set hr _ _, hslot⟩
      · exact Or.inl hclosed

omit [Build] [Peer π] in
theorem asked_listings (selected : Option RuntimeId) (entries : List (Entry RuntimeId)) (d : Desk Host π) :
    d.Asked (listings selected entries d).2 := by
  induction entries generalizing d with
  | nil => exact .refl d
  | cons e entries ih => exact (Desk.asked_isAvailable e.runtime d).trans (ih _)

theorem perform_owes {selector : Selector RuntimeId}
    (hthere : ∀ id ∈ selector.registry.runtimes, ∃ r, d.get? id = some r) (format : Format) (task : Task) :
    (task.perform selector format d).2.Owes selector.registry.runtimes d.world.pool.processes.length := by
  have hserves : ∀ operation : ContextOp, ∀ op : Context PipeSession → Attempt (World Host π) Value,
      operation.run = Context.lift op → ∀ c (w : World Host π), w.Serves (op c w).2 := by
    intro operation op hop c w
    have h := operation.serves (c, w)
    rwa [hop] at h
  cases task with
  | eval preamble source =>
    exact evaluate_owes hthere (hserves (.eval source) _ (by rw [ContextOp.run])) format preamble
  | exec preamble source =>
    exact evaluate_owes hthere (hserves (.exec source) _ (by rw [ContextOp.run])) format preamble
  | call arguments =>
    rw [Task.perform]
    cases arguments.arguments.mapM readArgument with
    | error f => exact d.owes_of_length
    | ok values =>
      exact evaluate_owes hthere (hserves (.call arguments.function values) _ (by rw [ContextOp.run])) format
        arguments.preamble
  | runtimes =>
    exact ((Desk.asked_select selector [] d).trans (asked_listings _ _ _)).owes

/-- **No process that a command starts outlives it.** -/
theorem dispatch_closed (registrations : List (Registration Host π)) (stdin : List UInt8) (invocation : Invocation)
    (d : Desk Host π) {id : ProcessId} (hid : d.world.pool.processes.length ≤ id) :
    (dispatch registrations stdin invocation d).2.world.pool.IsClosed id := by
  obtain ⟨hworld, hthere⟩ := d.table_spec registrations
  rw [← hworld] at hid
  cases htask : invocation.command.task stdin with
  | error f =>
    rw [dispatch_of_no_task htask]
    exact Launch.Pool.isClosed_of_le hid
  | ok task =>
    rw [dispatch_of_task htask]
    exact Desk.shutdownAll_closed (perform_owes hthere invocation.format task) hid

end

/-! ### Output in JSON form -/

/-- A code and a message. -/
def errorValue (code message : String) : Value := .object [("code", .string code), ("message", .string message)]

/-- Standard output is one object with a code and a message, and the exit code is 1. -/
structure Report.ShowsError (report : Report) (code message : String) : Prop where
  exitCode : report.exitCode = 1
  stdout : report.stdout = (Value.object [("ok", .bool false), ("error", errorValue code message)]).pretty ++ "\n"
  text : IsText report.stdout (.object [("error", errorValue code message), ("ok", .bool false)])

/-- Standard output is one object with the name of a runtime and a value, and the exit code is 0. -/
structure Report.ShowsValue (report : Report) (runtime : String) (value : Value) : Prop where
  exitCode : report.exitCode = 0
  stdout : report.stdout = (successReport runtime value).pretty ++ "\n"
  text : IsText report.stdout (.object [("ok", .bool true), ("runtime", .string runtime), ("value", value.reread)])

/-- What is reported at an end. -/
def Report.Shows [Build] (report : Report) : Ending → Prop
  | .beforehand f => report.ShowsError "failed" f.message
  | .refused e => report.ShowsError e.code (": ".intercalate e.chain)
  | .gave runtime value => report.ShowsValue runtime value

theorem sound_errorValue (code message : String) : (errorValue code message).Sound 1 := by
  have horder : ["code", "message"].Pairwise (· < ·) := by decide
  refine .object (.of_map Prod.fst (fun _ _ h => h) horder) ?_
  exact List.forall_mem_cons.2 ⟨.string code, List.forall_mem_singleton.2 (.string message)⟩

theorem isText_errorObject (code message : String) :
    IsText ((Value.object [("ok", .bool false), ("error", errorValue code message)]).pretty ++ "\n")
      (.object [("error", errorValue code message), ("ok", .bool false)]) := by
  have hfields : ∀ f ∈ [("ok", Value.bool false), ("error", errorValue code message)], f.2.Sound 1 :=
    List.forall_mem_cons.2 ⟨.bool false, List.forall_mem_singleton.2 (sound_errorValue code message)⟩
  have herror : (errorValue code message).reread = errorValue code message := by
    refine Value.reread_of_integral ?_ (sound_errorValue code message).wellFormed
    simp [errorValue, Value.Integral, Value.FieldsIntegral]
  have horder : "error" < "ok" := by decide
  have htext := Json.isText_object hfields
  simp only [List.map_cons, List.map_nil, herror, Value.reread, Json.fieldsOf, List.foldl_cons, List.foldl_nil,
    Json.insertField, if_pos horder] at htext
  exact htext

theorem isText_successReport (runtime : String) {value : Value} {n : Nat} (h : value.Sound n) :
    IsText ((successReport runtime value).pretty ++ "\n")
      (.object [("ok", .bool true), ("runtime", .string runtime), ("value", value.reread)]) := by
  have hfields : ∀ f ∈ [("ok", Value.bool true), ("runtime", .string runtime), ("value", value)], f.2.Sound n :=
    List.forall_mem_cons.2 ⟨.bool true, List.forall_mem_cons.2 ⟨.string runtime, List.forall_mem_singleton.2 h⟩⟩
  have htext := Json.isText_object hfields
  have hkeys : ["ok", "runtime", "value"].Pairwise (· < ·) := by decide
  have horder : [("ok", Value.bool true), ("runtime", .string runtime), ("value", value.reread)].Pairwise
      fun f g => f.1 < g.1 := .of_map Prod.fst (fun _ _ h => h) hkeys
  rw [← Json.fieldsOf_of_pairwise horder]
  exact htext

theorem showsError_failed [Build] (f : Failure) : (Report.of .json (.failed f)).ShowsError f.code f.message := by
  have hstdout : (Report.of .json (.failed f)).stdout = (failureReport f).pretty ++ "\n" := by
    rw [stdout_of_failure rfl]
    exact String.empty_append
  refine ⟨rfl, hstdout, ?_⟩
  rw [hstdout]
  exact isText_errorObject f.code f.message

section

variable [Build] {π : Type} [Peer π] {registrations : List (Registration Host π)} {stdin : List UInt8}
  {invocation : Invocation} {d : Desk Host π}

/-- **What is reported belongs to the end.** -/
theorem shows_of_ends (hf : invocation.format = .json) {ending : Ending}
    (h : Ends registrations stdin invocation d ending) :
    (runOn registrations stdin invocation d).1.Shows ending := by
  have hreport : (runOn registrations stdin invocation d).1 = Report.of .json (ending.printout .json) := by
    rw [← hf, ← dispatch_of_ends h]
    rfl
  rw [hreport]
  cases ending with
  | beforehand f =>
    have hcode : f.code = "failed" := h.code_beforehand
    have hshown := showsError_failed f
    rwa [hcode] at hshown
  | refused e => exact showsError_failed (.ofError e)
  | gave runtime value => exact ⟨rfl, rfl, isText_successReport runtime h.sound⟩

/-- **The exit code is 0 exactly if a context gave a value.** -/
theorem exitCode_runOn_iff (hf : invocation.format = .json) (hc : invocation.command ≠ .runtimes) :
    (runOn registrations stdin invocation d).1.exitCode = 0 ↔
      ∃ runtime value, Ends registrations stdin invocation d (.gave runtime value) := by
  constructor
  · intro hzero
    obtain ⟨ending, hends⟩ := exists_ends registrations stdin hc d
    have hshown := shows_of_ends hf hends
    cases ending with
    | beforehand f => cases hzero.symm.trans hshown.exitCode
    | refused e => cases hzero.symm.trans hshown.exitCode
    | gave runtime value => exact ⟨runtime, value, hends⟩
  · rintro ⟨runtime, value, hends⟩
    exact (shows_of_ends hf hends).exitCode

end

section

variable [Build] {π : Type} [Peer π]

/-- What a command reports in JSON form and what it leaves. -/
structure Accounts (registrations : List (Registration Host π)) (stdin : List UInt8) (invocation : Invocation)
    (d : Desk Host π) : Prop where
  /-- It ends in one way, and that is what is reported. -/
  reported : ∃ ending, Ends registrations stdin invocation d ending ∧
    (∀ other, Ends registrations stdin invocation d other → other = ending) ∧
    (runOn registrations stdin invocation d).1.Shows ending
  /-- It succeeds exactly if a context gave a value. -/
  exitCode : (runOn registrations stdin invocation d).1.exitCode = 0 ↔
    ∃ runtime value, Ends registrations stdin invocation d (.gave runtime value)
  /-- The processes that were started meanwhile are closed. -/
  closed : ∀ id, d.world.pool.processes.length ≤ id →
    (dispatch registrations stdin invocation d).2.world.pool.IsClosed id ∧
    (dispatch registrations stdin invocation d).2.world.pool.isAlive id = false

/-- **What a command in JSON form reports and leaves, however it ends; and its code is that of the error at the
root, whatever was being tried.** -/
theorem runOn_accounts (registrations : List (Registration Host π)) (stdin : List UInt8) {invocation : Invocation}
    (hf : invocation.format = .json) (hc : invocation.command ≠ .runtimes) (d : Desk Host π) :
    Accounts registrations stdin invocation d ∧
      (∀ (contexts : List String) (e : Error), (contexts.foldr Failure.within (.ofError e)).code = e.code) ∧
      ∀ (contexts : List String) (text : String),
        (contexts.foldr Failure.within { cause := .other text }).code = "failed" := by
  have hcode : ∀ (contexts : List String) (f : Failure), (contexts.foldr Failure.within f).code = f.code := by
    intro contexts f
    induction contexts with
    | nil => rfl
    | cons context contexts ih => rw [List.foldr_cons, Failure.code_within, ih]
  obtain ⟨ending, hends⟩ := exists_ends registrations stdin hc d
  have hreported := shows_of_ends hf hends
  refine ⟨⟨⟨ending, hends, fun _ h => h.unique hends, hreported⟩, exitCode_runOn_iff hf hc, ?_⟩,
    fun contexts e => hcode contexts (.ofError e), fun contexts text => hcode contexts _⟩
  intro id hid
  have hclosed := dispatch_closed registrations stdin invocation d hid
  exact ⟨hclosed, hclosed.isAlive⟩

end

/-- A toy engine that serves all contexts. -/
def toyRegistrations : List (Registration Host Station) :=
  [⟨"Toy", .external (.ofLauncher { name := "toy", isShared := true } Launch.toyLauncher), true⟩]

/-- A sum, to be printed in JSON form. -/
def askSum : Invocation :=
  { verbosity := 0, format := .json, runtime := none, command := .eval ⟨some "1 + 2", none⟩ }

/-- A desk on a host without files. -/
def bareDesk : Desk Host Station := { world := { host := ⟨.empty, "/", []⟩ } }

attribute [local instance] Build.plain in
theorem runOn_accounts_sum : askSum.format = .json ∧ askSum.command ≠ .runtimes ∧
    Accounts toyRegistrations [] askSum bareDesk ∧ (runOn toyRegistrations [] askSum bareDesk).1.exitCode = 0 ∧
    (dispatch toyRegistrations [] askSum bareDesk).2.world.pool.processes.length = 1 :=
  ⟨rfl, by decide, (runOn_accounts toyRegistrations [] rfl (by decide) bareDesk).1, by decide +kernel,
    by decide +kernel⟩

attribute [local instance] Build.plain in
example : (runOn toyRegistrations [] askSum bareDesk).1.stdout =
    "\x7b\n  \"ok\": true,\n  \"runtime\": \"toy\",\n  \"value\": 3\n\x7d\n" := by decide +kernel

end EnginePipe.Cli
