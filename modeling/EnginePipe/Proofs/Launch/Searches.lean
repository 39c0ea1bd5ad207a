import EnginePipe.Launch.Watched
import EnginePipe.Proofs.Launch.Failures

/-!
# What is asked of a host

On a watched host one sees what a search for a command has asked for, and what a manager has.  Both do the same
as on a host that nobody watches.

* `Search`, `resolve_watched`: **a search asks for one program after the other**, up to the first that is there.
* `Manager.start_watched`: a manager asks for its command, and for nothing else.
-/

namespace EnginePipe.Launch

open Channel (Peer EngineProcess)

variable {ω π : Type}

/-! ### Searching -/

/-- The programs of candidates; a blank candidate has none. -/
def programs (candidates : List String) : List String := candidates.filterMap fun c => (candidateWords c).head?

/-- What a search among candidates has asked for, and what it has found. -/
inductive Search (candidates : List String) : List (String × Option String) → Option Command → Prop
  /-- Nothing was located. -/
  | missed : Search candidates ((programs candidates).map (·, none)) none
  /-- The program of a candidate was located, and no program of a candidate before it. -/
  | located {earlier later : List String} {candidate program path : String} {arguments : List String}
    (hsplit : candidates = earlier ++ candidate :: later)
    (hwords : candidateWords candidate = program :: arguments) :
    Search candidates ((programs earlier).map (·, none) ++ [(program, some path)]) (some ⟨path, arguments⟩)

namespace Search

variable {candidates : List String} {candidate : String} {sought : List (String × Option String)}
  {found : Option Command}

theorem blank (hwords : candidateWords candidate = []) (h : Search candidates sought found) :
    Search (candidate :: candidates) sought found := by
  have hprograms : ∀ cs, programs (candidate :: cs) = programs cs := by
    intro cs
    rw [programs, List.filterMap_cons_none (by rw [hwords]; rfl), programs]
  cases h with
  | missed =>
    rw [← hprograms]
    exact .missed
  | @located earlier later taken program path arguments hsplit htaken =>
    rw [← hprograms]
    exact .located (by rw [hsplit]; rfl) htaken

theorem later {program : String} {arguments : List String}
    (hwords : candidateWords candidate = program :: arguments) (h : Search candidates sought found) :
    Search (candidate :: candidates) ((program, none) :: sought) found := by
  have hprograms : ∀ cs, programs (candidate :: cs) = program :: programs cs := by
    intro cs
    rw [programs, List.filterMap_cons_some (by rw [hwords]; rfl), programs]
  cases h with
  | missed =>
    rw [← List.map_cons (f := (·, none)), ← hprograms]
    exact .missed
  | @located earlier later taken program' path arguments' hsplit htaken =>
    rw [← List.cons_append, ← List.map_cons (f := (·, none)), ← hprograms]
    exact .located (by rw [hsplit]; rfl) htaken

end Search

/-- **A search asks for one program after the other**, up to the first that is there. -/
theorem resolve_watched (locator : Locator ω) (candidates : List String) (host : ω) (before : List Inquiry) :
    ∃ sought, Search candidates sought (resolve locator candidates host).1 ∧
      resolve locator.watched candidates ⟨host, before⟩ = ((resolve locator candidates host).1,
        ⟨(resolve locator candidates host).2, before ++ sought.map fun s => .sought s.1 s.2⟩) := by
  induction candidates generalizing host before with
  | nil => exact ⟨[], .missed, by rw [List.map_nil, List.append_nil]; rfl⟩
  | cons candidate candidates ih =>
    rw [resolve, resolve]
    cases hwords : candidateWords candidate with
    | nil =>
      obtain ⟨sought, hsearch, hwatched⟩ := ih host before
      exact ⟨sought, hsearch.blank hwords, hwatched⟩
    | cons program arguments =>
      obtain ⟨⟨path, host'⟩, hlocated⟩ : ∃ a, locator program host = a := ⟨_, rfl⟩
      have hlog : locator.watched program ⟨host, before⟩ = (path, ⟨host', before ++ [.sought program path]⟩) := by
        rw [Locator.watched, hlocated]
      dsimp only
      rw [hlocated, hlog]
      cases path with
      | some path => exact ⟨[(program, some path)], .located (List.nil_append _).symm hwords, rfl⟩
      | none =>
        obtain ⟨sought, hsearch, hwatched⟩ := ih host' (before ++ [.sought program none])
        refine ⟨(program, none) :: sought, hsearch.later hwords, ?_⟩
        dsimp only
        rw [hwatched, List.map_cons, List.append_assoc, List.singleton_append]

/-! ### Starting -/

namespace Manager

variable (starter : Starter ω π) (c : Command) (m : Manager) (w : World ω π) (before : List Inquiry)

/-- The entries of answers to launches. -/
def inquiriesOf (c : Command) (m : Manager) (answers : List Answer) : List Inquiry :=
  answers.map (.launched (c.words m.descriptor.bootstrap))

theorem launch_watched : launch (starter.watched.spawn c) (m, w.watched before) =
    ((launch (starter.spawn c) (m, w)).1, (launch (starter.spawn c) (m, w)).2.1,
      (launch (starter.spawn c) (m, w)).2.2.watched
        (before ++ inquiriesOf c m (answer? (starter.spawn c) m w).toList)) := by
  cases hf : m.failure with
  | some reason =>
    rw [launch_of_failure hf, launch_of_failure hf, answer?_of_failure hf, Option.toList_none, inquiriesOf,
      List.map_nil, List.append_nil]
  | none =>
    rw [answer?_of_none hf, Option.toList_some]
    obtain ⟨⟨result, host⟩, hl⟩ : ∃ a, starter.spawn c m.descriptor w.host = a := ⟨_, rfl⟩
    have hwatched : starter.watched.spawn c m.descriptor (w.watched before).host =
        (result, ⟨host, before ++ [.launched (c.words m.descriptor.bootstrap) (result.map fun _ => ())]⟩) := by
      have hl' : starter m.descriptor (c.words m.descriptor.bootstrap) w.host = (result, host) := hl
      show starter.watched m.descriptor (c.words m.descriptor.bootstrap) ⟨w.host, before⟩ = _
      rw [Starter.watched, hl']
    rw [hl]
    cases result with
    | ok p =>
      rw [launch_of_ok hf hl, launch_of_ok hf hwatched]
      rfl
    | error e =>
      rw [launch_of_error hf hl, launch_of_error hf hwatched]
      rfl

variable [Peer π]

/-- **A manager asks for its command**, if it needs a process and nothing is known against it. -/
theorem start_watched : start (starter.watched.spawn c) (m, w.watched before) =
    ((start (starter.spawn c) (m, w)).1, (start (starter.spawn c) (m, w)).2.1,
      (start (starter.spawn c) (m, w)).2.2.watched
        (before ++ inquiriesOf c m ((Call.start : Call π).answer? (starter.spawn c) m w).toList)) := by
  have hlaunch := launch_watched starter c m w before
  have hcurrent : m.current? (w.watched before) = m.current? w := rfl
  cases hs : m.descriptor.isShared with
  | false =>
    have hneeds : (Call.start : Call π).needsProcess m w = true := by
      rw [Call.needsProcess, hs]
      rfl
    rw [start_of_owned hs, start_of_owned hs, hlaunch, Call.answer?, hneeds, if_pos rfl]
  | true =>
    rw [start_of_shared hs, start_of_shared hs]
    cases hc : m.current? w with
    | none =>
      have hneeds : (Call.start : Call π).needsProcess m w = true := by
        rw [Call.needsProcess, hs, hc]
        rfl
      rw [attach_of_none hc, attach_of_none (hcurrent.trans hc), replace_eq, replace_eq, hlaunch, Call.answer?,
        hneeds, if_pos rfl]
      obtain ⟨⟨result, m', w'⟩, hl⟩ : ∃ a, launch (starter.spawn c) (m, w) = a := ⟨_, rfl⟩
      rw [hl]
      cases result <;> rfl
    | some id =>
      have hneeds : (Call.start : Call π).needsProcess m w = false := by
        rw [Call.needsProcess, hs, hc]
        rfl
      obtain ⟨hslot, halive⟩ := current?_eq_some_iff.1 hc
      have halive' : (w.watched before).pool.isAlive id := halive
      rw [attach_of_alive hslot halive, attach_of_alive hslot halive', Call.answer?, hneeds,
        if_neg Bool.false_ne_true, Option.toList_none, inquiriesOf, List.map_nil, List.append_nil]

end Manager

end EnginePipe.Launch
