import EnginePipe.Launch.Calls
import EnginePipe.Proofs.Launch.Contention

/-!
# Failures to start are for good

A launcher may answer differently each time, so that it is worth asking whether it is asked again.  A manager
asks it for a call that needs a process, and not once it has said that the engine could not be started; there
is no way around `Manager.launch`, where the reason is looked at.

* `Call.run_of_needs`, `Call.run_of_living`: a request launches, or gives what stands in the slot.
* `Call.run_recording`, `Call.runAll_recording`: **recording changes nothing**, and what is recorded.
* `Call.Remembered.run`: the failure is the first that is on record.
* `Call.remembers`: all that a manager does about failures, after any calls.
-/

namespace EnginePipe.Launch

open Channel (Peer EngineProcess)

variable {ω π : Type} {launcher : Launcher ω π} {m : Manager} {w : World ω π}

/-! ### Launching -/

namespace Manager

/-- What the launcher answers to the next launch, if it is asked. -/
def answer? (launcher : Launcher ω π) (m : Manager) (w : World ω π) : Option Answer :=
  if m.failure.isNone then some ((launcher m.descriptor w.host).1.map fun _ => ()) else none

theorem answer?_of_failure {reason : String} (h : m.failure = some reason) :
    answer? launcher m w = none := by
  simp [answer?, h]

theorem answer?_of_none (h : m.failure = none) :
    answer? launcher m w = some ((launcher m.descriptor w.host).1.map fun _ => ()) := by
  simp [answer?, h]

theorem launch_recording (answers : List Answer) :
    launch launcher.recording (m, w.recorded answers) = ((launch launcher (m, w)).1,
      (launch launcher (m, w)).2.1,
      (launch launcher (m, w)).2.2.recorded (answers ++ (answer? launcher m w).toList)) := by
  cases hf : m.failure with
  | some reason =>
    rw [launch_of_failure hf, launch_of_failure hf, answer?_of_failure hf, Option.toList_none,
      List.append_nil]
  | none =>
    rw [answer?_of_none hf, Option.toList_some]
    cases hl : launcher m.descriptor w.host with
    | mk result host =>
      have hrecording : launcher.recording m.descriptor (w.recorded answers).host =
          (result, ⟨host, answers ++ [result.map fun _ => ()]⟩) := by
        show launcher.recording m.descriptor ⟨w.host, answers⟩ = _
        rw [Launcher.recording, hl]
      cases result with
      | ok p =>
        rw [launch_of_ok hf hl, launch_of_ok hf hrecording]
        rfl
      | error e =>
        rw [launch_of_error hf hl, launch_of_error hf hrecording]
        rfl

/-- A manager after the launcher has answered, or has not been asked. -/
structure Heeds (answer : Option Answer) (m m' : Manager) : Prop where
  descriptor : m'.descriptor = m.descriptor
  launches : m'.launches = m.launches + answer.toList.length
  failure : m'.failure = m.failure.or (answer.bind Answer.reason?)

theorem heeds_launch (launcher : Launcher ω π) (m : Manager) (w : World ω π) :
    Heeds (answer? launcher m w) m (launch launcher (m, w)).2.1 := by
  cases hf : m.failure with
  | some reason =>
    rw [launch_of_failure hf]
    exact ⟨rfl, by simp [answer?_of_failure hf], by simp [hf]⟩
  | none =>
    cases hl : launcher m.descriptor w.host with
    | mk result host =>
      cases result with
      | ok p =>
        rw [launch_of_ok hf hl]
        exact ⟨rfl, by simp [answer?_of_none hf], by simp [answer?_of_none hf, hf, hl, Except.map, Answer.reason?]⟩
      | error e =>
        rw [launch_of_error hf hl]
        refine ⟨by cases e <;> rfl, by simp [answer?_of_none hf], ?_⟩
        rw [answer?_of_none hf, hf, hl]
        cases e <;> rfl

/-- Launching leaves the processes that are there. -/
theorem get?_launch (launcher : Launcher ω π) (m : Manager) {id : ProcessId} (h : id < w.pool.processes.length) :
    (launch launcher (m, w)).2.2.pool.get? id = w.pool.get? id := by
  cases hf : m.failure with
  | some reason => rw [launch_of_failure hf]
  | none =>
    cases hl : launcher m.descriptor w.host with
    | mk result host =>
      cases result with
      | ok p =>
        rw [launch_of_ok hf hl]
        exact Pool.get?_start_of_lt h p
      | error e => rw [launch_of_error hf hl]

/-! ### Starting -/

theorem replace_eq : replace launcher (m, w) = match launch launcher (m, w) with
    | (.ok id, m', w') => (.ok id, { m' with slot := some id }, w')
    | (.error e, s) => (.error e, s) := by
  obtain ⟨⟨result, m', w'⟩, hl⟩ : ∃ a, launch launcher (m, w) = a := ⟨_, rfl⟩
  rw [hl, replace]
  cases result with
  | ok id => exact Attempt.bind_apply_of_ok hl _
  | error e => exact Attempt.bind_apply_of_error hl _

variable [Peer π]

theorem start_of_shared (h : m.descriptor.isShared) : start launcher (m, w) =
    ((attach launcher (m, w)).1.map .shared, (attach launcher (m, w)).2) := by
  have hget : Attempt.get (m, w) = (.ok (m, w), m, w) := rfl
  rw [start, Attempt.bind_apply_of_ok hget]
  simp only [h, if_true]
  obtain ⟨⟨result, s⟩, ha⟩ : ∃ a, attach launcher (m, w) = a := ⟨_, rfl⟩
  rw [ha]
  cases result with
  | ok id => exact Attempt.bind_apply_of_ok ha _
  | error e => exact Attempt.bind_apply_of_error ha _

theorem start_of_owned (h : m.descriptor.isShared = false) : start launcher (m, w) =
    ((launch launcher (m, w)).1.map .owned, (launch launcher (m, w)).2) := by
  have hget : Attempt.get (m, w) = (.ok (m, w), m, w) := rfl
  rw [start, Attempt.bind_apply_of_ok hget]
  simp only [h, Bool.false_eq_true, if_false]
  obtain ⟨⟨result, s⟩, ha⟩ : ∃ a, launch launcher (m, w) = a := ⟨_, rfl⟩
  rw [ha]
  cases result with
  | ok id => exact Attempt.bind_apply_of_ok ha _
  | error e => exact Attempt.bind_apply_of_error ha _

end Manager

/-! ### Calls -/

namespace Call

variable [Peer π] {call : Call π}

theorem run_start : (start : Call π).run launcher (m, w) =
    ((Manager.start launcher (m, w)).1.map some, (Manager.start launcher (m, w)).2) := by
  obtain ⟨⟨result, s⟩, ha⟩ : ∃ a, Manager.start launcher (m, w) = a := ⟨_, rfl⟩
  rw [run, ha]
  cases result with
  | ok handle => exact Attempt.bind_apply_of_ok ha _
  | error e => exact Attempt.bind_apply_of_error ha _

theorem run_attach : (attach : Call π).run launcher (m, w) =
    ((Manager.attach launcher (m, w)).1.map fun id => some (.shared id),
      (Manager.attach launcher (m, w)).2) := by
  obtain ⟨⟨result, s⟩, ha⟩ : ∃ a, Manager.attach launcher (m, w) = a := ⟨_, rfl⟩
  rw [run, ha]
  cases result with
  | ok id => exact Attempt.bind_apply_of_ok ha _
  | error e => exact Attempt.bind_apply_of_error ha _

/-- Whether a process that is launched for a call is put into the slot. -/
def isSeated (call : Call π) (m : Manager) : Bool :=
  match call with
  | start => m.descriptor.isShared
  | _ => true

/-- What is given of a process that was launched for a call, and the manager that has it. -/
def seat (isSeated : Bool) (id : ProcessId) (m : Manager) : Handle × Manager :=
  if isSeated then (.shared id, { m with slot := some id }) else (.owned id, m)

/-- **A call that needs a process launches one.** -/
theorem run_of_needs (h : call.needsProcess m w) : call.run launcher (m, w) =
    match Manager.launch launcher (m, w) with
    | (.ok id, m', w') => (.ok (some (seat (call.isSeated m) id m').1), (seat (call.isSeated m) id m').2, w')
    | (.error e, s) => (.error e, s) := by
  have hseated : m.current? w = none → Manager.attach launcher (m, w) =
      match Manager.launch launcher (m, w) with
      | (.ok id, m', w') => (.ok id, { m' with slot := some id }, w')
      | (.error e, s) => (.error e, s) := by
    intro hnone
    rw [Manager.attach_of_none hnone, Manager.replace_eq]
  cases call with
  | start =>
    rw [run_start]
    cases hs : m.descriptor.isShared with
    | true =>
      rw [needsProcess, hs, Bool.not_true, Bool.false_or, Option.isNone_iff_eq_none] at h
      rw [Manager.start_of_shared hs, hseated h, isSeated, hs]
      obtain ⟨⟨result, m', w'⟩, hl⟩ : ∃ a, Manager.launch launcher (m, w) = a := ⟨_, rfl⟩
      rw [hl]
      cases result <;> rfl
    | false =>
      rw [Manager.start_of_owned hs, isSeated, hs]
      obtain ⟨⟨result, m', w'⟩, hl⟩ : ∃ a, Manager.launch launcher (m, w) = a := ⟨_, rfl⟩
      rw [hl]
      cases result <;> rfl
  | attach =>
    rw [needsProcess, Option.isNone_iff_eq_none] at h
    rw [run_attach, hseated h]
    obtain ⟨⟨result, m', w'⟩, hl⟩ : ∃ a, Manager.launch launcher (m, w) = a := ⟨_, rfl⟩
    rw [hl]
    cases result <;> rfl
  | _ => cases h

/-- A request that needs no process gives the one in the slot. -/
theorem run_of_living (launcher : Launcher ω π) (hr : call.isRequest) (h : call.needsProcess m w = false) :
    ∃ id, m.current? w = some id ∧ call.run launcher (m, w) = (.ok (some (.shared id)), m, w) := by
  have hattach : ∀ id, m.current? w = some id → Manager.attach launcher (m, w) = (.ok id, m, w) := by
    intro id hid
    obtain ⟨hslot, halive⟩ := Manager.current?_eq_some_iff.mp hid
    exact Manager.attach_of_alive hslot halive launcher
  cases call with
  | start =>
    rw [needsProcess, Bool.or_eq_false_iff, Option.isNone_eq_false_iff, Option.isSome_iff_exists] at h
    obtain ⟨hs, id, hid⟩ := h
    refine ⟨id, hid, ?_⟩
    rw [run_start, Manager.start_of_shared (by simpa using hs), hattach id hid]
    rfl
  | attach =>
    rw [needsProcess, Option.isNone_eq_false_iff, Option.isSome_iff_exists] at h
    obtain ⟨id, hid⟩ := h
    refine ⟨id, hid, ?_⟩
    rw [run_attach, hattach id hid]
    rfl
  | _ => cases hr

/-- What the launcher answers to a call, if it is asked. -/
def answer? (launcher : Launcher ω π) (call : Call π) (m : Manager) (w : World ω π) : Option Answer :=
  if call.needsProcess m w then Manager.answer? launcher m w else none

theorem answer?_of_failure {reason : String} (h : m.failure = some reason) :
    call.answer? launcher m w = none := by
  rw [answer?, Manager.answer?_of_failure h, ite_self]

/-- What a call does that asks for nothing. -/
theorem heeds_of_not_isRequest (h : call.isRequest = false) :
    Manager.Heeds none m (call.run launcher (m, w)).2.1 := by
  cases call with
  | start => cases h
  | attach => cases h
  | _ => exact ⟨rfl, rfl, (Option.or_none).symm⟩

theorem heeds_run (launcher : Launcher ω π) (call : Call π) (m : Manager) (w : World ω π) :
    Manager.Heeds (call.answer? launcher m w) m (call.run launcher (m, w)).2.1 := by
  cases hn : call.needsProcess m w with
  | true =>
    have hlaunch := Manager.heeds_launch launcher m w
    rw [answer?, hn, if_pos rfl, run_of_needs hn]
    obtain ⟨⟨result, m', w'⟩, hl⟩ : ∃ a, Manager.launch launcher (m, w) = a := ⟨_, rfl⟩
    rw [hl] at hlaunch ⊢
    cases result with
    | ok id =>
      dsimp only [seat]
      split
      · exact ⟨hlaunch.descriptor, hlaunch.launches, hlaunch.failure⟩
      · exact hlaunch
    | error e => exact hlaunch
  | false =>
    rw [answer?, hn, if_neg Bool.false_ne_true]
    cases hr : call.isRequest with
    | true =>
      obtain ⟨id, -, hrun⟩ := run_of_living launcher hr hn
      rw [hrun]
      exact ⟨rfl, rfl, (Option.or_none).symm⟩
    | false => exact heeds_of_not_isRequest hr

/-- **Recording changes nothing**, and an answer is written down if there is one. -/
theorem run_recording (launcher : Launcher ω π) (call : Call π) (m : Manager) (w : World ω π)
    (answers : List Answer) : call.run launcher.recording (m, w.recorded answers) =
      ((call.run launcher (m, w)).1, (call.run launcher (m, w)).2.1,
        (call.run launcher (m, w)).2.2.recorded (answers ++ (call.answer? launcher m w).toList)) := by
  have hneeds : call.needsProcess m (w.recorded answers) = call.needsProcess m w := by
    cases call <;> rfl
  cases hn : call.needsProcess m w with
  | true =>
    rw [hn] at hneeds
    rw [answer?, hn, if_pos rfl, run_of_needs hn, run_of_needs hneeds, Manager.launch_recording]
    obtain ⟨⟨result, m', w'⟩, hl⟩ : ∃ a, Manager.launch launcher (m, w) = a := ⟨_, rfl⟩
    rw [hl]
    cases result <;> rfl
  | false =>
    rw [answer?, hn, if_neg Bool.false_ne_true, Option.toList_none, List.append_nil]
    cases hr : call.isRequest with
    | true =>
      obtain ⟨id, hid, hrun⟩ := run_of_living launcher hr hn
      obtain ⟨id', hid', hrun'⟩ := run_of_living launcher.recording hr (hneeds.trans hn)
      cases hid.symm.trans hid'
      rw [hrun, hrun']
    | false =>
      cases call with
      | start => cases hr
      | attach => cases hr
      | reset =>
        show (_, m, m.reset (w.recorded answers)) = (_, m, (m.reset w).recorded answers)
        unfold Manager.reset Manager.finishReset
        cases m.slot <;> rfl
      | shutdown isBusy =>
        show (_, m.shutdown isBusy (w.recorded answers)) =
          (_, (m.shutdown isBusy w).1, (m.shutdown isBusy w).2.recorded answers)
        unfold Manager.shutdown Manager.takeSlot Manager.finishShutdown
        cases m.slot <;> rfl
      | stir id change => rfl

/-- A request leaves the processes that are there. -/
theorem get?_run (hr : call.isRequest) {id : ProcessId} (h : id < w.pool.processes.length) :
    (call.run launcher (m, w)).2.2.pool.get? id = w.pool.get? id := by
  cases hn : call.needsProcess m w with
  | true =>
    have hlaunch := Manager.get?_launch launcher m h
    rw [run_of_needs hn]
    obtain ⟨⟨result, m', w'⟩, hl⟩ : ∃ a, Manager.launch launcher (m, w) = a := ⟨_, rfl⟩
    rw [hl] at hlaunch ⊢
    cases result <;> exact hlaunch
  | false =>
    obtain ⟨_, -, hrun⟩ := run_of_living launcher hr hn
    rw [hrun]

theorem run_of_failure (hn : call.needsProcess m w) {reason : String} (h : m.failure = some reason) :
    call.run launcher (m, w) = (.error (.spawnFailed m.descriptor.name reason), m, w) := by
  rw [run_of_needs hn, Manager.launch_of_failure h]

theorem run_of_error (hn : call.needsProcess m w) (hf : m.failure = none) {e : Error}
    (he : (launcher m.descriptor w.host).1 = .error e) : (call.run launcher (m, w)).1 = .error e := by
  obtain ⟨host, hl⟩ : ∃ host, launcher m.descriptor w.host = (.error e, host) := ⟨_, Prod.ext he rfl⟩
  rw [run_of_needs hn, Manager.launch_of_error hf hl]

/-! ### All calls -/

/-- What the launcher answers to calls. -/
def answers (launcher : Launcher ω π) : List (Call π) → Manager × World ω π → List Answer
  | [], _ => []
  | call :: calls, s =>
    (call.answer? launcher s.1 s.2).toList ++ answers launcher calls (call.run launcher s).2

theorem runAll_recording (launcher : Launcher ω π) (calls : List (Call π)) (m : Manager) (w : World ω π)
    (before : List Answer) : runAll launcher.recording calls (m, w.recorded before) =
      ((runAll launcher calls (m, w)).1,
        (runAll launcher calls (m, w)).2.recorded (before ++ answers launcher calls (m, w))) := by
  induction calls generalizing m w before with
  | nil =>
    rw [answers, List.append_nil]
    rfl
  | cons call calls ih =>
    show runAll _ calls (call.run launcher.recording (m, w.recorded before)).2 = _
    rw [run_recording, ih, answers, List.append_assoc]
    rfl

/-- A manager has counted the answers, and its failure is the first of them. -/
structure Remembered (descriptor : Descriptor) (answers : List Answer) (m : Manager) : Prop where
  descriptor : m.descriptor = descriptor
  launches : m.launches = answers.length
  failure : m.failure = answers.findSome? Answer.reason?

theorem Remembered.heeds {descriptor : Descriptor} {answers : List Answer} {answer : Option Answer}
    {m' : Manager} (h : Remembered descriptor answers m) (hm : Manager.Heeds answer m m') :
    Remembered descriptor (answers ++ answer.toList) m' where
  descriptor := hm.descriptor.trans h.descriptor
  launches := by rw [hm.launches, h.launches, List.length_append]
  failure := by
    rw [hm.failure, h.failure, List.findSome?_append]
    cases answer with
    | none => rfl
    | some a =>
      simp only [Option.bind_some, Option.toList_some, List.findSome?_singleton]

theorem Remembered.run {descriptor : Descriptor} {before : List Answer} {s : Manager × World ω π}
    (h : Remembered descriptor before s.1) (launcher : Launcher ω π) (calls : List (Call π)) :
    Remembered descriptor (before ++ answers launcher calls s) (runAll launcher calls s).1 := by
  induction calls generalizing s before with
  | nil =>
    rw [answers, List.append_nil]
    exact h
  | cons call calls ih =>
    rw [answers, ← List.append_assoc]
    exact ih (h.heeds (heeds_run launcher call s.1 s.2))

/-- Once there is a failure the launcher is not asked. -/
theorem answers_of_failure {s : Manager × World ω π} {reason : String} (h : s.1.failure = some reason)
    (calls : List (Call π)) : answers launcher calls s = [] := by
  induction calls generalizing s with
  | nil => rfl
  | cons call calls ih =>
    have hheeds := heeds_run launcher call s.1 s.2
    have hnone : call.answer? launcher s.1 s.2 = none := answer?_of_failure h
    have hfailure : (call.run launcher s).2.1.failure = some reason := by
      rw [hheeds.failure, h]
      rfl
    rw [answers, hnone, ih hfailure]
    rfl

/-- What a manager does about failures, after calls.  `s` is what the calls leave, and `t` is the same with a
recording launcher. -/
structure Remembers (launcher : Launcher ω π) (descriptor : Descriptor) (s : Manager × World ω π)
    (t : Manager × World (Recorded ω) π) : Prop where
  unseen : t = (s.1, s.2.recorded t.2.host.answers)
  counted : s.1.launches = t.2.host.answers.length
  /-- The first reason is kept; other errors are not. -/
  kept : s.1.failure = t.2.host.answers.findSome? Answer.reason?
  /-- The launcher is asked if a process is needed and nothing is known against it. -/
  asked : ∀ call : Call π, (call.run launcher.recording t).2.2.host.answers =
    t.2.host.answers ++ if call.needsProcess s.1 s.2 && s.1.failure.isNone then
      [(launcher descriptor s.2.host).1.map fun _ => ()] else []
  failed : ∀ call : Call π, call.needsProcess s.1 s.2 → s.1.failure = none →
    ∀ e, (launcher descriptor s.2.host).1 = .error e → (call.run launcher s).1 = .error e
  refused : ∀ call : Call π, call.needsProcess s.1 s.2 → ∀ reason, s.1.failure = some reason →
    call.run launcher s = (.error (.spawnFailed descriptor.name reason), s)
  /-- Whatever comes later, it is not asked again, and the reason stays. -/
  final : ∀ reason, s.1.failure = some reason → ∀ more,
    (runAll launcher.recording more t).2.host.answers = t.2.host.answers ∧
      (runAll launcher more s).1.failure = some reason
  /-- Processes that were handed out are left alone by requests. -/
  untouched : ∀ call : Call π, call.isRequest → ∀ id < s.2.pool.processes.length,
    (call.run launcher s).2.2.pool.get? id = s.2.pool.get? id

/-- **A failure to start is for good.** -/
theorem remembers (launcher : Launcher ω π) (descriptor : Descriptor) (world : World ω π)
    (calls : List (Call π)) :
    Remembers launcher descriptor (runAll launcher calls (.ofDescriptor descriptor, world))
      (runAll launcher.recording calls (.ofDescriptor descriptor, world.recorded [])) := by
  have hstart : Remembered descriptor [] (.ofDescriptor descriptor) := ⟨rfl, rfl, rfl⟩
  have hs := hstart.run launcher calls (s := (.ofDescriptor descriptor, world))
  rw [runAll_recording, List.nil_append]
  rw [List.nil_append] at hs
  generalize runAll launcher calls (.ofDescriptor descriptor, world) = s at hs ⊢
  generalize answers launcher calls (.ofDescriptor descriptor, world) = answers at hs ⊢
  obtain ⟨m, w⟩ := s
  have hdescriptor : m.descriptor = descriptor := hs.descriptor
  refine ⟨rfl, hs.launches, hs.failure, ?_, ?_, ?_, ?_, ?_⟩
  · intro call
    rw [run_recording]
    show answers ++ _ = answers ++ _
    rw [answer?, Manager.answer?, ← hdescriptor]
    cases call.needsProcess m w <;> cases m.failure <;> rfl
  · intro call hn hf e he
    exact run_of_error hn hf (hdescriptor ▸ he)
  · intro call hn reason hf
    rw [← hdescriptor]
    exact run_of_failure hn hf
  · intro reason hf more
    have hmore := (hs.run launcher more).failure
    rw [answers_of_failure (s := (m, w)) hf, List.append_nil] at hmore
    rw [runAll_recording, answers_of_failure (s := (m, w)) hf, List.append_nil]
    exact ⟨rfl, hmore.trans (hs.failure.symm.trans hf)⟩
  · intro call hr id hid
    exact get?_run hr hid

end Call

end EnginePipe.Launch
