import EnginePipe.Proofs.Bridge.Cleanup
import EnginePipe.Proofs.Launch.Searches

/-!
# Probing once

A runtime looks for its commands when it is first asked whether it is available or for a context.  What it finds
then is what it knows for good, however the host changes.  So what a host is asked by a runtime begins with one
search, and only launches of the command that was found come behind it.

Two runs go side by side: one on a host, and the same on a watched host, from which one sees this.

* `Findings`, `Findings.Leads`: what a runtime knows, and what it may know later.
* `External.Mirrors`, `External.Mirrors.probed`: a runtime beside the same on a watched host, and its search.
* `External.compile_watched`, `Runtime.compile_watched`, `Runtime.withContext_watched`: **only launches come behind
  the search**.
* `Runtime.compile_asked`: opening a context asks first.
-/

namespace EnginePipe

open Channel (Peer EngineProcess)
open Launch (Answer Call Command Inquiry Launcher Locator Manager ProcessId Search Starter Watched World)

variable {ω π α : Type} [Peer π]

/-! ### Worlds on watched hosts -/

namespace Launch.World

/-- On the host of the second world something was written down, and that is all the difference. -/
def Bears (inquiries : List Inquiry) (w : World ω π) (w' : World (Watched ω) π) : Prop := w' = w.watched inquiries

/-- Sessions ask a host for nothing. -/
theorem sessionsAlike_watched (inquiries : List Inquiry) :
    SessionsAlike PipeSession (Bears (ω := ω) (π := π) inquiries) where
  id := fun _ => rfl
  evaluate := by
    rintro session source w _ rfl
    exact ⟨rfl, rfl⟩
  close := by
    rintro session w _ rfl
    show (session.close w).1 = (session.close (w.watched inquiries)).1 ∧
      (session.close (w.watched inquiries)).2 = (session.close w).2.watched inquiries
    have hpool : (w.watched inquiries).pool = w.pool := rfl
    unfold PipeSession.close
    rw [hpool]
    cases session.handle with
    | owned id => exact ⟨rfl, rfl⟩
    | shared id =>
      dsimp only
      split <;> exact ⟨rfl, rfl⟩

end Launch.World

namespace Bridge

/-! ### What a runtime knows -/

/-- What a runtime has learned about its engine: what it asked for in its search, the command that it found, and
what came of each launch. -/
inductive Findings where
  /-- It has not looked yet. -/
  | pending
  | missing (sought : List (String × Option String))
  | found (sought : List (String × Option String)) (c : Command) (answers : List Answer)

namespace Findings

/-- What a host was asked for. -/
def inquiries (bootstrap : String) : Findings → List Inquiry
  | pending => []
  | missing sought => sought.map fun s => .sought s.1 s.2
  | found sought c answers =>
    (sought.map fun s => .sought s.1 s.2) ++ answers.map (.launched (c.words bootstrap))

/-- Whether a command was found, and no launch has said that it cannot be started. -/
def isUsable : Findings → Bool
  | found _ _ answers => (answers.findSome? Answer.reason?).isNone
  | _ => false

/-- What may be known later, with what came of the launches in between. -/
inductive Leads (commands : List String) : Findings → List Answer → Findings → Prop
  | pending : Leads commands .pending [] .pending
  | missing (sought : List (String × Option String)) : Leads commands (.missing sought) [] (.missing sought)
  | found (sought : List (String × Option String)) (c : Command) (answers more : List Answer) :
    Leads commands (.found sought c answers) more (.found sought c (answers ++ more))
  /-- The runtime looks for its commands. -/
  | missed {sought : List (String × Option String)} (h : Search commands sought none) :
    Leads commands .pending [] (.missing sought)
  | located {sought : List (String × Option String)} {c : Command} (h : Search commands sought (some c))
    (more : List Answer) : Leads commands .pending more (.found sought c more)

variable {commands : List String} {f f' f'' : Findings} {more more' : List Answer}

theorem Leads.refl (commands : List String) (f : Findings) : Leads commands f [] f := by
  cases f with
  | pending => exact .pending
  | missing sought => exact .missing sought
  | found sought c answers =>
    have hfound : Leads commands (.found sought c answers) [] (.found sought c (answers ++ [])) :=
      .found sought c answers []
    rwa [List.append_nil] at hfound

theorem Leads.trans (h : Leads commands f more f') (h' : Leads commands f' more' f'') :
    Leads commands f (more ++ more') f'' := by
  cases h with
  | pending => exact h'
  | missing sought => exact h'
  | found sought c answers more =>
    cases h' with
    | found _ _ _ more' =>
      rw [List.append_assoc]
      exact .found sought c answers (more ++ more')
  | missed h =>
    cases h' with
    | missing sought => exact .missed h
  | located h more =>
    cases h' with
    | found sought c _ more' => exact .located h (more ++ more')

theorem Leads.ne_pending (h : Leads commands f more f') (hf : f ≠ .pending) : f' ≠ .pending := by
  cases h with
  | pending => exact absurd rfl hf
  | _ => intro h; cases h

section

variable {σ τ : Type} {M : Findings → σ → τ → Prop} {s : σ} {t : τ}

/-- Two states that go together by what is known, when more may be known. -/
def Follows (commands : List String) (M : Findings → σ → τ → Prop) (f : Findings) (s : σ) (t : τ) : Prop :=
  ∃ more f', Leads commands f more f' ∧ M f' s t

theorem Follows.refl (h : M f s t) : Follows commands M f s t := ⟨[], f, .refl commands f, h⟩

theorem Follows.lead (hl : Leads commands f more f') (h : Follows commands M f' s t) :
    Follows commands M f s t := by
  obtain ⟨more', f'', hl', hm⟩ := h
  exact ⟨more ++ more', f'', hl.trans hl', hm⟩

end

end Findings

/-! ### Runtimes side by side -/

namespace External

variable (d : Descriptor) (locator : Locator ω) (starter : Starter ω π)

/-- A runtime with what it knows, and the same runtime on a watched host. -/
inductive Tracks : Findings → External ω π → External (Watched ω) π → Prop
  | pending : Tracks .pending ⟨d, locator, starter.spawn, .pending⟩
      ⟨d, locator.watched, starter.watched.spawn, .pending⟩
  | missing (sought : List (String × Option String)) : Tracks (.missing sought)
      ⟨d, locator, starter.spawn, .missing⟩ ⟨d, locator.watched, starter.watched.spawn, .missing⟩
  | found (sought : List (String × Option String)) (c : Command) {answers : List Answer} {m : Manager}
    (hd : m.descriptor = d) (hf : m.failure = answers.findSome? Answer.reason?) :
    Tracks (.found sought c answers) ⟨d, locator, starter.spawn, .found (starter.spawn c) m⟩
      ⟨d, locator.watched, starter.watched.spawn, .found (starter.watched.spawn c) m⟩

/-- Both with their worlds.  On the watched host stands what the runtime has asked for. -/
structure Mirrors (f : Findings) (s : External ω π × World ω π)
    (s' : External (Watched ω) π × World (Watched ω) π) : Prop where
  tracks : Tracks d locator starter f s.1 s'.1
  world : s'.2 = s.2.watched (f.inquiries d.bootstrap)

/-- Both, when more may be known. -/
abbrev Follows (f : Findings) : External ω π × World ω π → External (Watched ω) π × World (Watched ω) π → Prop :=
  Findings.Follows d.commands (Mirrors d locator starter) f

variable {d locator starter} {f : Findings} {s : External ω π × World ω π}
  {s' : External (Watched ω) π × World (Watched ω) π}

omit [Peer π] in
theorem Tracks.isUsable {x : External ω π} {x' : External (Watched ω) π} (h : Tracks d locator starter f x x') :
    x.isUsable = f.isUsable ∧ x'.isUsable = f.isUsable := by
  cases h with
  | found sought c hd hf =>
    rw [Findings.isUsable, ← hf]
    exact ⟨rfl, rfl⟩
  | _ => exact ⟨rfl, rfl⟩

omit [Peer π] in
/-- **Probing** leads to a search if there was none yet, and to nothing otherwise. -/
theorem Mirrors.probed (h : Mirrors d locator starter f s s') :
    ∃ f', Findings.Leads d.commands f [] f' ∧ f' ≠ .pending ∧
      Mirrors d locator starter f' (s.1.probed s.2) (s'.1.probed s'.2) := by
  obtain ⟨x, w⟩ := s
  obtain ⟨x', w'⟩ := s'
  obtain ⟨htracks, hworld⟩ := h
  dsimp only at htracks hworld ⊢
  subst hworld
  cases htracks with
  | pending =>
    obtain ⟨sought, hsearch, hwatched⟩ := Launch.resolve_watched locator d.commands w.host []
    obtain ⟨⟨found, host⟩, hr⟩ : ∃ a, Launch.resolve locator d.commands w.host = a := ⟨_, rfl⟩
    have hr' : Launch.resolve locator.watched d.commands (w.watched []).host =
        (found, ⟨host, sought.map fun s => .sought s.1 s.2⟩) := by
      rw [hr] at hwatched
      exact hwatched
    rw [hr] at hsearch
    unfold External.probed
    dsimp only [Findings.inquiries]
    rw [hr, hr']
    cases found with
    | none => exact ⟨.missing sought, .missed hsearch, by simp, .missing sought, rfl⟩
    | some c =>
      refine ⟨.found sought c [], .located hsearch [], by simp, .found sought c rfl rfl, ?_⟩
      show _ = World.watched _ ((sought.map _) ++ [])
      rw [List.append_nil]
      rfl
  | missing sought => exact ⟨.missing sought, .missing sought, by simp, .missing sought, rfl⟩
  | found sought c hd hf =>
    exact ⟨.found sought c _, .refl _ _, by simp, .found sought c hd hf, rfl⟩

/-- A process for a new context. -/
theorem start_watched (f : Findings) : Attempt.Alike (Follows d locator starter f) start start := by
  rintro ⟨x, w⟩ ⟨x', w'⟩ ⟨more, f', hleads, htracks, hworld⟩
  dsimp only at htracks hworld
  subst hworld
  cases htracks with
  | pending => exact ⟨rfl, more, _, hleads, .pending, rfl⟩
  | missing sought => exact ⟨rfl, more, _, hleads, .missing sought, rfl⟩
  | @found sought c answers m hd hf =>
    have hwatched := Manager.start_watched starter c m w
      ((Findings.found sought c answers).inquiries d.bootstrap)
    have hheeds := Call.heeds_run (starter.spawn c) (.start : Call π) m w
    rw [Call.run_start] at hheeds
    generalize (Call.start : Call π).answer? (starter.spawn c) m w = answer at hwatched hheeds
    obtain ⟨⟨result, m', w'⟩, hs⟩ : ∃ a, Manager.start (starter.spawn c) (m, w) = a := ⟨_, rfl⟩
    rw [hs] at hwatched hheeds
    unfold start
    dsimp only
    rw [hs, hwatched]
    -- What came of a launch is known from now on, and the first failure is the one that the manager remembers.
    refine ⟨rfl, more ++ answer.toList, .found sought c (answers ++ answer.toList),
      hleads.trans (.found sought c answers answer.toList), .found sought c ?_ ?_, ?_⟩
    · exact hheeds.descriptor.trans hd
    · rw [List.findSome?_append, ← hf]
      refine hheeds.failure.trans ?_
      cases answer with
      | none => rfl
      | some answer =>
        rw [Option.toList_some, List.findSome?_singleton]
        rfl
    · show World.watched w' _ = World.watched w' _
      rw [Findings.inquiries, Findings.inquiries, Manager.inquiriesOf, hd, List.map_append, List.append_assoc]

omit [Peer π] in
/-- A new key is taken on both sides. -/
theorem Mirrors.takeId (h : Mirrors d locator starter f s s') :
    Mirrors d locator starter f (s.1, s.2.takeId.2) (s'.1, s'.2.takeId.2) := by
  refine ⟨h.tracks, ?_⟩
  rw [h.world]
  rfl

theorem openContext_watched (f : Findings) (preamble : String) :
    Attempt.Alike (Follows d locator starter f) (openContext preamble) (openContext preamble) := by
  rintro ⟨x, w⟩ ⟨x', w'⟩ ⟨more, f', hleads, hm⟩
  have hid : w'.takeId.1 = w.takeId.1 := congrArg World.nextContext hm.world
  obtain ⟨result, ⟨y, v⟩, ⟨y', v'⟩, hs, ht, hfollows⟩ :=
    exists_answer (start_watched f' _ _ (.refl hm.takeId))
  unfold openContext
  dsimp only at hs ht ⊢
  rw [hid, hs, ht]
  cases result with
  | error e => exact ⟨rfl, .lead hleads hfollows⟩
  | ok handle =>
    obtain ⟨more', f'', hleads', htracks, hworld⟩ := hfollows
    have hdescriptor : y'.descriptor = y.descriptor := by
      cases htracks <;> rfl
    obtain ⟨hopened, hleft⟩ := Context.start_alike
      (World.sessionsAlike_watched (f''.inquiries d.bootstrap)) y.descriptor.name
      (⟨w.takeId.1, y.descriptor.syntaxMarker, handle⟩ : PipeSession) preamble v v' hworld
    dsimp only
    rw [hdescriptor]
    exact ⟨hopened, .lead hleads ⟨more', f'', hleads', htracks, hleft⟩⟩

theorem compile_watched (f : Findings) (preamble : String) :
    Attempt.Alike (Follows d locator starter f) (compile preamble) (compile preamble) := by
  rintro ⟨x, w⟩ ⟨x', w'⟩ ⟨more, f', hleads, hm⟩
  obtain ⟨f'', hleads', -, hprobed⟩ := hm.probed
  have hopen := openContext_watched f'' preamble _ _ (.refl hprobed)
  unfold compile
  dsimp only at hprobed hopen ⊢
  generalize x.probed w = left at hprobed hopen ⊢
  generalize x'.probed w' = left' at hprobed hopen ⊢
  obtain ⟨y, v⟩ := left
  obtain ⟨y', v'⟩ := left'
  obtain ⟨htracks, hworld⟩ := hprobed
  cases htracks with
  | pending => exact ⟨rfl, .lead hleads (.lead hleads' (.refl ⟨.pending, hworld⟩))⟩
  | missing sought => exact ⟨rfl, .lead hleads (.lead hleads' (.refl ⟨.missing sought, hworld⟩))⟩
  | found sought c hd hf => exact ⟨hopen.1, .lead hleads (.lead hleads' hopen.2)⟩

/-! #### Ending the engine -/

theorem Mirrors.reset (h : Mirrors d locator starter f s s') :
    Mirrors d locator starter f (s.1, s.1.reset s.2) (s'.1, s'.1.reset s'.2) := by
  obtain ⟨x, w⟩ := s
  obtain ⟨x', w'⟩ := s'
  obtain ⟨htracks, hworld⟩ := h
  dsimp only at htracks hworld ⊢
  subst hworld
  cases htracks with
  | pending => exact ⟨.pending, rfl⟩
  | missing sought => exact ⟨.missing sought, rfl⟩
  | @found sought c answers m hd hf =>
    refine ⟨.found sought c hd hf, ?_⟩
    show m.reset (w.watched _) = (m.reset w).watched _
    unfold Manager.reset Manager.finishReset
    cases m.slot <;> rfl

theorem Mirrors.shutdown (h : Mirrors d locator starter f s s') :
    Mirrors d locator starter f (s.1.shutdown s.2) (s'.1.shutdown s'.2) := by
  obtain ⟨x, w⟩ := s
  obtain ⟨x', w'⟩ := s'
  obtain ⟨htracks, hworld⟩ := h
  dsimp only at htracks hworld ⊢
  subst hworld
  cases htracks with
  | pending => exact ⟨.pending, rfl⟩
  | missing sought => exact ⟨.missing sought, rfl⟩
  | @found sought c answers m hd hf =>
    refine ⟨.found sought c hd hf, ?_⟩
    show (m.shutdown (fun _ => false) (w.watched _)).2 = (m.shutdown (fun _ => false) w).2.watched _
    unfold Manager.shutdown Manager.takeSlot Manager.finishShutdown
    cases m.slot <;> rfl

end External

namespace Runtime

variable (d : Descriptor) (locator : Locator ω) (starter : Starter ω π)

/-- Runtimes over engine processes in their worlds, side by side. -/
inductive Mirrors (f : Findings) : Runtime ω π × World ω π → Runtime (Watched ω) π × World (Watched ω) π → Prop
  | external {x : External ω π} {w : World ω π} {x' : External (Watched ω) π} {w' : World (Watched ω) π}
    (h : External.Mirrors d locator starter f (x, w) (x', w')) : Mirrors f (.external x, w) (.external x', w')

/-- Both, when more may be known. -/
abbrev Follows (f : Findings) : Runtime ω π × World ω π → Runtime (Watched ω) π × World (Watched ω) π → Prop :=
  Findings.Follows d.commands (Mirrors d locator starter) f

variable {d locator starter} {f : Findings} {r : Runtime ω π} {w : World ω π} {r' : Runtime (Watched ω) π}
  {w' : World (Watched ω) π}

omit [Peer π] in
theorem Mirrors.world (h : Mirrors d locator starter f (r, w) (r', w')) :
    w' = w.watched (f.inquiries d.bootstrap) := by
  cases h with
  | external h => exact h.world

omit [Peer π] in
theorem Mirrors.name (h : Mirrors d locator starter f (r, w) (r', w')) : r'.name = r.name := by
  cases h with
  | external h =>
    obtain ⟨htracks, -⟩ := h
    cases htracks <;> rfl

omit [Peer π] in
theorem Mirrors.isDeprecated (h : Mirrors d locator starter f (r, w) (r', w')) :
    r'.isDeprecated = r.isDeprecated := by
  cases h
  rfl

omit [Peer π] in
/-- The worlds may change beside the runtimes. -/
theorem Mirrors.beside {v : World ω π} {v' : World (Watched ω) π}
    (hv : World.Bears (f.inquiries d.bootstrap) v v') (h : Mirrors d locator starter f (r, w) (r', w')) :
    Mirrors d locator starter f (r, v) (r', v') := by
  cases h with
  | external h => exact .external ⟨h.tracks, hv⟩

omit [Peer π] in
/-- **Asking** is probing, and the answer is in what is known then. -/
theorem Mirrors.isAvailable (h : Mirrors d locator starter f (r, w) (r', w')) :
    ∃ f', Findings.Leads d.commands f [] f' ∧ f' ≠ .pending ∧ (r.isAvailable w).1 = f'.isUsable ∧
      (r'.isAvailable w').1 = f'.isUsable ∧
      Mirrors d locator starter f' (r.isAvailable w).2 (r'.isAvailable w').2 := by
  cases h with
  | external h =>
    obtain ⟨f', hleads, hne, hm⟩ := h.probed
    exact ⟨f', hleads, hne, hm.tracks.isUsable.1, hm.tracks.isUsable.2, .external hm⟩

theorem Mirrors.reset (h : Mirrors d locator starter f (r, w) (r', w')) :
    Mirrors d locator starter f (r, r.reset w) (r', r'.reset w') := by
  cases h with
  | external h => exact .external h.reset

theorem Mirrors.shutdown (h : Mirrors d locator starter f (r, w) (r', w')) :
    Mirrors d locator starter f (r.shutdown w) (r'.shutdown w') := by
  cases h with
  | external h => exact .external h.shutdown

theorem compile_watched (f : Findings) (preamble : String) :
    Attempt.Alike (Follows d locator starter f) (compile preamble) (compile preamble) := by
  rintro _ _ ⟨more, f', hleads, ⟨h⟩⟩
  obtain ⟨hresult, more', f'', hleads', hm⟩ := External.compile_watched f' preamble _ _ (.refl h)
  exact ⟨hresult, .lead hleads ⟨more', f'', hleads', .external hm⟩⟩

omit [Peer π] in
theorem within_watched {x : Attempt (World ω π) α} {y : Attempt (World (Watched ω) π) α}
    (h : ∀ inquiries, Attempt.Alike (World.Bears inquiries) x y) :
    Attempt.Alike (Follows d locator starter f) (Attempt.within Prod.snd (fun w (r, _) => (r, w)) x)
      (Attempt.within Prod.snd (fun w (r, _) => (r, w)) y) := by
  rintro _ _ ⟨more, f', hleads, hm⟩
  obtain ⟨hresult, hleft⟩ := h _ _ _ hm.world
  exact ⟨hresult, more, f', hleads, hm.beside hleft⟩

theorem withContext_watched (f : Findings) (preamble : String)
    {x : Attempt (Context PipeSession × World ω π) α} {y : Attempt (Context PipeSession × World (Watched ω) π) α}
    (h : ∀ inquiries, Attempt.Alike (Beside (World.Bears inquiries)) x y) :
    Attempt.Alike (Follows d locator starter f) (withContext preamble x) (withContext preamble y) :=
  (compile_watched f preamble).bind fun _ =>
    within_watched fun inquiries => Context.finish_alike (World.sessionsAlike_watched inquiries) (h inquiries)

/-! #### What is asked first -/

/-- **Opening a context asks first.** -/
theorem compile_asked (preamble : String) (r : Runtime ω π) (w : World ω π) :
    compile preamble (r.isAvailable w).2 = compile preamble (r, w) := by
  cases r with
  | disabled => rfl
  | external x =>
    have hasked : External.compile preamble (x.probed w) = External.compile preamble (x, w) := by
      have hprobed : (x.probed w).1.probed (x.probed w).2 = x.probed w := x.probed_probed w _
      show External.compile preamble ((x.probed w).1, (x.probed w).2) = _
      simp only [External.compile, hprobed]
    show compile preamble (external (x.probed w).1, (x.probed w).2) = _
    simp only [compile, hasked]

theorem withContext_asked (preamble : String) (body : Attempt (Context PipeSession × World ω π) α)
    (r : Runtime ω π) (w : World ω π) :
    withContext preamble body (r.isAvailable w).2 = withContext preamble body (r, w) := by
  unfold withContext
  rw [Attempt.bind_apply, Attempt.bind_apply, compile_asked]

end Runtime

end Bridge

end EnginePipe
