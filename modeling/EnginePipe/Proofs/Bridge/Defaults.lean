import EnginePipe.Bridge.Builtin
import EnginePipe.Proofs.Bridge.Cleanup

/-!
# The history of the default runtime

The slot for the default runtime is filled by assignment or, if it is empty when it is asked, by detection; both
may fail, and whether they do may change from one call to the next.  What the slot holds is said by its history
alone: the last assignment that succeeded, or else what was found first.

* `get_noted`: what a detection comes to can be noted without changing anything.
* `SlotEvent.Moves`: all that a call can do to the slot (`moves_perform`).
* `Chronicle.eq_standing`: **what the slot holds is what stands by its history**.
* `Chronicle.lasting`: it is held until the next assignment, and nothing is detected in between.
* `le_of_autodetect`: each detection finds a runtime of its own, so that what is held could not have been found
  again.
* `faithful_run`: what the answers of any run of calls are.
-/

namespace EnginePipe.Bridge

open Channel (Peer)
open Launch (Station)

/-! ### Detections -/

namespace DefaultSlot

variable {ρ σ : Type}

/-- A detection that is noted, with what it comes to. -/
def noted (detect : Attempt σ ρ) : Attempt (σ × List (Except Error ρ)) ρ := fun (s, notes) =>
  let (result, s) := detect s
  (result, s, notes ++ [result])

/-- What is noted while the slot is asked. -/
def detections (detect : Attempt σ ρ) (slot : Option ρ) (s : σ) : List (Except Error ρ) :=
  (get (noted detect) (slot, s, [])).2.2.2

theorem get_of_none (detect : Attempt σ ρ) (s : σ) :
    get detect (none, s) = ((detect s).1, (detect s).1.toOption, (detect s).2) := by
  rcases hd : detect s with ⟨_ | _, _⟩ <;> simp [get, hd, Except.toOption]

@[simp] theorem detections_of_some (detect : Attempt σ ρ) (r : ρ) (s : σ) : detections detect (some r) s = [] := rfl

@[simp] theorem detections_of_none (detect : Attempt σ ρ) (s : σ) : detections detect none s = [(detect s).1] := by
  rw [detections, get_of_none]
  rfl

/-- Noting changes neither the answer nor the slot nor the state. -/
theorem get_noted (detect : Attempt σ ρ) (slot : Option ρ) (s : σ) (notes : List (Except Error ρ)) :
    get (noted detect) (slot, s, notes) =
      ((get detect (slot, s)).1, (get detect (slot, s)).2.1, (get detect (slot, s)).2.2,
        notes ++ detections detect slot s) := by
  cases slot with
  | some r => simp
  | none =>
    rw [get_of_none, get_of_none, detections_of_none]
    rfl

end DefaultSlot

/-! ### The slot of a desk -/

namespace Desk

variable {ω π α : Type} {d d' : Desk ω π} {id : RuntimeId}

@[simp] theorem default_step (d : Desk ω π) (id : RuntimeId)
    (f : Runtime ω π → Launch.World ω π → α × Runtime ω π × Launch.World ω π) :
    (d.step id f).2.default = d.default := by
  unfold step
  split <;> rfl

@[simp] theorem default_sweep [Peer π] (d : Desk ω π) : d.sweep.default = d.default := by
  have hfold (ids : List RuntimeId) (d : Desk ω π) : (ids.foldl shutdown d).default = d.default := by
    induction ids generalizing d with
    | nil => rfl
    | cons id ids ih =>
      rw [List.foldl_cons, ih]
      exact default_step d id _
  exact hfold _ d

theorem setDefault_of_available [Peer π] (h : isAvailable id d = (true, d')) :
    setDefault id d = (.ok (), sweep { d' with default := some id }) := by
  have hc : Candidates.isAvailable id d = (true, d') := h
  simp [setDefault, DefaultSlot.assign, hc]

theorem setDefault_of_unavailable [Peer π] (h : isAvailable id d = (false, d')) :
    setDefault id d =
      (.error (.runtimeUnavailable (d'.nameOf id)), sweep { d' with default := d.default }) := by
  have hc : Candidates.isAvailable id d = (false, d') := h
  rw [setDefault, DefaultSlot.assign_of_unavailable hc]
  rfl

/-- A runtime that is held is given, and nothing else happens. -/
theorem getDefault_of_some {r : RuntimeId} (h : d.default = some r) (detect : Attempt (Desk ω π) RuntimeId) :
    getDefault detect d = (.ok r, d) := by
  rw [getDefault, h, DefaultSlot.get_of_some, ← h]

theorem getDefault_of_none (h : d.default = none) (detect : Attempt (Desk ω π) RuntimeId) :
    getDefault detect d = ((detect d).1, { (detect d).2 with default := (detect d).1.toOption }) := by
  rw [getDefault, h, DefaultSlot.get_of_none]

end Desk

/-! ### Calls and what they come to -/

/-- A call of a program that uses the default runtime. -/
inductive SlotCall (ω π : Type) where
  /-- Asks for the default runtime, which is detected in some way if there is none. -/
  | ask (detect : Attempt (Desk ω π) RuntimeId)
  /-- Makes a runtime the default. -/
  | assign (id : RuntimeId)
  /-- Anything else, which does not bear on the slot. -/
  | meanwhile (change : Desk ω π → Desk ω π)

/-- What a call came to. -/
inductive SlotEvent where
  /-- What was detected, and what was answered. -/
  | asked (detections : List (Except Error RuntimeId)) (answer : Except Error RuntimeId)
  /-- Whether a runtime could be used, and what was answered when it was to become the default. -/
  | assigned (id : RuntimeId) (isUsable : Bool) (answer : Except Error Unit)
  | passed

namespace SlotCall

variable {ω π : Type} [Peer π]

/-- Makes a call. -/
def perform (call : SlotCall ω π) (d : Desk ω π) : SlotEvent × Desk ω π :=
  match call with
  | ask detect =>
    let (answer, d') := d.getDefault detect
    (.asked (DefaultSlot.detections detect d.default d) answer, d')
  | assign id =>
    let (answer, d') := d.setDefault id
    (.assigned id (d.isAvailable id).1 answer, d')
  | meanwhile change => (.passed, { change d with default := d.default })

/-- Makes calls, one after the other. -/
def run : List (SlotCall ω π) → Desk ω π → List SlotEvent × Desk ω π
  | [], d => ([], d)
  | call :: calls, d =>
    let (event, d) := call.perform d
    let (events, d) := run calls d
    (event :: events, d)

end SlotCall

namespace SlotEvent

/-- All that a call can do to the slot. -/
inductive Moves : Option RuntimeId → SlotEvent → Option RuntimeId → Prop
  | held (r : RuntimeId) : Moves (some r) (.asked [] (.ok r)) (some r)
  | filled (r : RuntimeId) : Moves none (.asked [.ok r] (.ok r)) (some r)
  | missed (e : Error) : Moves none (.asked [.error e] (.error e)) none
  | assigned (slot : Option RuntimeId) (r : RuntimeId) : Moves slot (.assigned r true (.ok ())) (some r)
  | refused (slot : Option RuntimeId) (r : RuntimeId) (name : String) :
      Moves slot (.assigned r false (.error (.runtimeUnavailable name))) slot
  | passed (slot : Option RuntimeId) : Moves slot .passed slot

end SlotEvent

open SlotEvent (Moves)

theorem moves_perform {ω π : Type} [Peer π] (call : SlotCall ω π) (d : Desk ω π) :
    Moves d.default (call.perform d).1 (call.perform d).2.default := by
  cases call with
  | ask detect =>
    unfold SlotCall.perform
    cases hslot : d.default with
    | some r =>
      simp only [Desk.getDefault_of_some hslot, DefaultSlot.detections_of_some, hslot]
      exact .held r
    | none =>
      simp only [Desk.getDefault_of_none hslot, DefaultSlot.detections_of_none]
      cases (detect d).1 with
      | ok r => exact .filled r
      | error e => exact .missed e
  | assign id =>
    unfold SlotCall.perform
    rcases ha : Desk.isAvailable id d with ⟨_ | _, d'⟩
    · simp only [Desk.setDefault_of_unavailable ha, Desk.default_sweep, ha]
      exact .refused d.default id (d'.nameOf id)
    · simp only [Desk.setDefault_of_available ha, Desk.default_sweep, ha]
      exact .assigned d.default id
  | meanwhile change => exact .passed d.default

/-! ### Histories -/

/-- What happened to a slot, one event after the other. -/
inductive Chronicle : Option RuntimeId → List SlotEvent → Option RuntimeId → Prop
  | nil (slot : Option RuntimeId) : Chronicle slot [] slot
  | cons {slot slot' slot'' : Option RuntimeId} {event : SlotEvent} {events : List SlotEvent}
      (first : Moves slot event slot') (rest : Chronicle slot' events slot'') : Chronicle slot (event :: events) slot''

theorem chronicle_run {ω π : Type} [Peer π] (calls : List (SlotCall ω π)) (d : Desk ω π) :
    Chronicle d.default (SlotCall.run calls d).1 (SlotCall.run calls d).2.default := by
  induction calls generalizing d with
  | nil => exact .nil d.default
  | cons call calls ih => exact .cons (moves_perform call d) (ih (call.perform d).2)

namespace SlotEvent

/-- The runtime that was assigned, if one was. -/
def assignment? : SlotEvent → Option RuntimeId
  | .assigned id _ (.ok ()) => some id
  | _ => none

/-- The runtimes that were found. -/
def found : SlotEvent → List RuntimeId
  | .asked detections _ => detections.filterMap Except.toOption
  | _ => []

/-- Whether the answer was an error. -/
def isFailure : SlotEvent → Bool
  | .asked _ (.error _) => true
  | .assigned _ _ (.error _) => true
  | _ => false

/-- The last runtime that was assigned. -/
def lastAssigned? (history : List SlotEvent) : Option RuntimeId := (history.filterMap assignment?).getLast?

/-- The first runtime that was found. -/
def firstFound? (history : List SlotEvent) : Option RuntimeId := (history.flatMap found).head?

/-- What stands after a history: what was assigned last or, if nothing was, what the slot held at the start or,
if it was empty, what was found first. -/
def standing (start : Option RuntimeId) (history : List SlotEvent) : Option RuntimeId :=
  (lastAssigned? history).or (start.or (firstFound? history))

theorem lastAssigned?_cons (event : SlotEvent) (events : List SlotEvent) :
    lastAssigned? (event :: events) = (lastAssigned? events).or event.assignment? := by
  rw [lastAssigned?, lastAssigned?, List.filterMap_cons]
  cases event.assignment? with
  | none => rw [Option.or_none]
  | some id =>
    rw [List.getLast?_cons]
    cases (events.filterMap assignment?).getLast? <;> rfl

theorem firstFound?_cons (event : SlotEvent) (events : List SlotEvent) :
    firstFound? (event :: events) = event.found.head?.or (firstFound? events) := by
  rw [firstFound?, firstFound?, List.flatMap_cons, List.head?_append]

/-- What stands goes on from what stands after the first event. -/
theorem standing_cons (start : Option RuntimeId) (event : SlotEvent) (events : List SlotEvent) :
    standing start (event :: events) = standing (event.assignment?.or (start.or event.found.head?)) events := by
  rw [standing, standing, lastAssigned?_cons, firstFound?_cons, Option.or_assoc, Option.or_assoc, Option.or_assoc]

@[simp] theorem standing_nil (start : Option RuntimeId) : standing start [] = start := Option.or_none

theorem Moves.eq {slot slot' : Option RuntimeId} {event : SlotEvent} (h : Moves slot event slot') :
    slot' = event.assignment?.or (slot.or event.found.head?) := by
  cases h <;> simp [assignment?, SlotEvent.found, Except.toOption]

theorem Moves.eq_of_isFailure {slot slot' : Option RuntimeId} {event : SlotEvent} (h : Moves slot event slot')
    (hfailure : event.isFailure) : slot' = slot := by
  cases h <;> first | rfl | cases hfailure

end SlotEvent

open SlotEvent (standing)

namespace Chronicle

variable {slot slot' : Option RuntimeId} {before after history : List SlotEvent} {event : SlotEvent}

/-- **What the slot holds is what stands by its history.** -/
theorem eq_standing (h : Chronicle slot history slot') : slot' = standing slot history := by
  induction h with
  | nil slot => exact (SlotEvent.standing_nil slot).symm
  | cons first _ ih => rw [ih, first.eq, SlotEvent.standing_cons]

/-- A history goes on from what stands after its beginning. -/
theorem of_append (h : Chronicle slot (before ++ after) slot') :
    Chronicle slot before (standing slot before) ∧ Chronicle (standing slot before) after slot' := by
  induction before generalizing slot with
  | nil =>
    rw [SlotEvent.standing_nil]
    exact ⟨.nil slot, h⟩
  | cons event before ih =>
    obtain - | ⟨first, rest⟩ := h
    obtain ⟨hbefore, hafter⟩ := ih rest
    rw [SlotEvent.standing_cons, ← first.eq]
    exact ⟨.cons first hbefore, hafter⟩

/-- Each event moves what stood before it. -/
theorem exists_moves (h : Chronicle slot (before ++ event :: after) slot') :
    ∃ next, Moves (standing slot before) event next := by
  obtain - | ⟨first, -⟩ := h.of_append.2
  exact ⟨_, first⟩

/-- What is held is given until the next assignment, and nothing is detected in between. -/
theorem lasting {r : RuntimeId} (h : Chronicle (some r) history slot')
    (hnone : ∀ event ∈ history, event.assignment? = none) {detections : List (Except Error RuntimeId)}
    {answer : Except Error RuntimeId} (hmem : .asked detections answer ∈ history) :
    detections = [] ∧ answer = .ok r := by
  induction history with
  | nil => cases hmem
  | cons event history ih =>
    obtain - | ⟨first, rest⟩ := h
    rcases List.mem_cons.1 hmem with rfl | hmem
    · cases first
      exact ⟨rfl, rfl⟩
    · -- The first event assigns nothing, so the slot holds the same runtime behind it.
      have hheld := first.eq
      rw [hnone event List.mem_cons_self, Option.none_or, Option.some_or] at hheld
      exact ih (hheld ▸ rest) (fun e he => hnone e (List.mem_cons_of_mem event he)) hmem

end Chronicle

/-! ### Runtimes that are found -/

/-- What is chosen from a new registry is new. -/
theorem Desk.le_of_select_table {ω π : Type} {registrations : List (Registration ω π)} {d d' : Desk ω π}
    {id : RuntimeId} {override : Option String} {excluded : List String}
    (h : Selector.select ⟨(d.table registrations).1, override⟩ excluded (d.table registrations).2 = (.ok id, d')) :
    d.runtimes.length ≤ id ∧ id < d'.runtimes.length := by
  have hmem := Selector.mem_of_select h
  have hasked := asked_select ⟨(d.table registrations).1, override⟩ excluded (d.table registrations).2
  rw [h] at hasked
  obtain ⟨r, hr⟩ := (d.table_spec registrations).2 id hmem
  obtain ⟨r', hr', -⟩ := hasked.exists_get? hr
  exact ⟨le_of_mem_table hmem, (List.getElem?_eq_some_iff.1 hr').1⟩

/-- **Each detection finds a runtime of its own**, which was not there before. -/
theorem le_of_autodetect {fallback : String} {d d' : Desk Host Station} {id : RuntimeId}
    (h : autodetect fallback d = (.ok id, d')) : d.runtimes.length ≤ id ∧ id < d'.runtimes.length := by
  have hselect : Selector.select ⟨(builtinTable fallback d).1,
      environmentOverride (builtinTable fallback d).2.world.host⟩ [] (builtinTable fallback d).2 = (.ok id, d') := h
  exact Desk.le_of_select_table hselect

/-! ### Runs -/

/-- What the history of a slot tells. -/
structure Faithful (start : Option RuntimeId) (history : List SlotEvent) (slot : Option RuntimeId) : Prop where
  /-- The slot holds what stands. -/
  slot : slot = standing start history
  /-- What stands is given, without detecting. -/
  held : ∀ {before after detections answer r}, history = before ++ .asked detections answer :: after →
    standing start before = some r → detections = [] ∧ answer = .ok r
  /-- Where nothing stands, it is detected, and what that comes to is answered. -/
  detected : ∀ {before after detections answer}, history = before ++ .asked detections answer :: after →
    standing start before = none → detections = [answer]
  /-- What can be used is assigned, and nothing else. -/
  assigned : ∀ {id isUsable answer}, .assigned id isUsable answer ∈ history →
    isUsable = true ∧ answer = .ok () ∨ isUsable = false ∧ ∃ name, answer = .error (.runtimeUnavailable name)
  /-- What stands is given until the next assignment, and nothing is detected in between. -/
  lasting : ∀ {before between after r}, history = before ++ (between ++ after) → standing start before = some r →
    (∀ event ∈ between, event.assignment? = none) →
      ∀ {detections answer}, .asked detections answer ∈ between → detections = [] ∧ answer = .ok r

theorem Chronicle.faithful {start slot : Option RuntimeId} {history : List SlotEvent}
    (h : Chronicle start history slot) : Faithful start history slot where
  slot := h.eq_standing
  held := by
    rintro before after detections answer r rfl hstanding
    obtain ⟨next, hmoves⟩ := h.exists_moves
    rw [hstanding] at hmoves
    cases hmoves
    exact ⟨rfl, rfl⟩
  detected := by
    rintro before after detections answer rfl hstanding
    obtain ⟨next, hmoves⟩ := h.exists_moves
    rw [hstanding] at hmoves
    cases hmoves <;> rfl
  assigned := by
    intro id isUsable answer hmem
    obtain ⟨before, after, rfl⟩ := List.append_of_mem hmem
    obtain ⟨next, hmoves⟩ := h.exists_moves
    generalize standing start before = stood at hmoves
    cases hmoves with
    | assigned => exact Or.inl ⟨rfl, rfl⟩
    | refused _ _ name => exact Or.inr ⟨rfl, name, rfl⟩
  lasting := by
    rintro before between after r rfl hstanding hnone detections answer hmem
    have hrest := h.of_append.2
    rw [hstanding] at hrest
    exact hrest.of_append.1.lasting hnone hmem

/-- **What becomes of the default runtime**: over any run of calls its history tells what the slot holds and what
every call answers, a call that fails leaves the slot as it was, and no detection could find again what is held. -/
theorem faithful_run [Build] (calls : List (SlotCall Host Station)) (d : Desk Host Station) :
    Faithful d.default (SlotCall.run calls d).1 (SlotCall.run calls d).2.default ∧
      (∀ call : SlotCall Host Station, (call.perform (SlotCall.run calls d).2).1.isFailure →
        (call.perform (SlotCall.run calls d).2).2.default = (SlotCall.run calls d).2.default) ∧
      ∀ {fallback : String} {d d' : Desk Host Station} {id : RuntimeId},
        autodetect fallback d = (.ok id, d') → d.runtimes.length ≤ id ∧ id < d'.runtimes.length := by
  have hchronicle := chronicle_run calls d
  refine ⟨hchronicle.faithful, fun call hfailure => ?_, fun hfound => le_of_autodetect hfound⟩
  have hmoves := moves_perform call (SlotCall.run calls d).2
  exact hmoves.eq_of_isFailure hfailure

/-- A desk on a host whose environment asks for a runtime. -/
def askingFor (name : String) : Desk Host Station where
  world := { host := ⟨.empty, "/", [(Selector.environmentVariable, name)]⟩ }

/-- A detection that fails, one that finds a runtime after the environment has changed, an assignment that is
refused, and one that is not. -/
def changingCalls : List (SlotCall Host Station) :=
  [.ask (autodetect ""), .meanwhile fun d => { d with world := (askingFor "Disabled").world }, .ask (autodetect ""),
    .assign 10, .ask (autodetect ""), .assign 4, .ask (autodetect "")]

attribute [local instance] Build.plain in
/-- What these calls come to, an assignment that is refused after them, and a runtime that is detected. -/
theorem faithful_run_changingCalls :
    (SlotCall.run changingCalls (askingFor "None")).1 =
        [.asked [.error (.notDefined "None")] (.error (.notDefined "None")), .passed, .asked [.ok 9] (.ok 9),
          .assigned 10 false (.error (.runtimeUnavailable "")), .asked [] (.ok 9), .assigned 4 true (.ok ()),
          .asked [] (.ok 4)] ∧
      (SlotCall.run changingCalls (askingFor "None")).2.default = some 4 ∧
      ((SlotCall.assign 10).perform (SlotCall.run changingCalls (askingFor "None")).2).2.default = some 4 ∧
      (autodetect "" (askingFor "Disabled")).1 = .ok 4 ∧ (askingFor "Disabled").runtimes.length ≤ 4 := by
  obtain ⟨hfaithful, hfailing, hnew⟩ := faithful_run changingCalls (askingFor "None")
  have hevents : (SlotCall.run changingCalls (askingFor "None")).1 =
      [.asked [.error (.notDefined "None")] (.error (.notDefined "None")), .passed, .asked [.ok 9] (.ok 9),
        .assigned 10 false (.error (.runtimeUnavailable "")), .asked [] (.ok 9), .assigned 4 true (.ok ()),
        .asked [] (.ok 4)] := rfl
  have hslot : (SlotCall.run changingCalls (askingFor "None")).2.default = some 4 := by
    rw [hfaithful.slot, hevents]
    rfl
  have hrefused : ((SlotCall.assign 10).perform (SlotCall.run changingCalls (askingFor "None")).2).1.isFailure := rfl
  have hfound : autodetect "" (askingFor "Disabled") = (.ok 4, (autodetect "" (askingFor "Disabled")).2) := rfl
  exact ⟨hevents, hslot, (hfailing _ hrefused).trans hslot, rfl, (hnew hfound).1⟩

end EnginePipe.Bridge
