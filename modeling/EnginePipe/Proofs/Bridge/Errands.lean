import EnginePipe.Proofs.Bridge.Probing
import EnginePipe.Proofs.Bridge.Unstartable

/-!
# Errands

What may happen while there is a runtime: it is asked whether it is available, it is used, one is chosen among it
and others, and anything else may go on in the world.  What the runtime knows grows along the way, and only so
that its search stays the first and only one.

* `CandidatesAlike`, `select_alike`: **where runtimes answer alike, the same one is chosen**.
* `Desk.candidatesAlike`: they do on a desk that is watched for one of them.
* `Stage.Mirrors.errand`, `Stage.Mirrors.errands`: what one errand adds to what is known, and what all of them do.
* `Stage.probes_once`: the search, the launches and the answers of a runtime, over all runs.
-/

namespace EnginePipe.Bridge

open Channel (Peer)
open Launch (Answer Command Inquiry Launcher Locator Manager Starter Watched World)

variable {ω π : Type}

/-! ### Selections that go alike -/

section

variable {ρ σ τ : Type} [Candidates ρ σ] [Candidates ρ τ]

/-- Runtimes to choose from answer alike in two states. -/
structure CandidatesAlike (ρ : Type) {σ τ : Type} [Candidates ρ σ] [Candidates ρ τ] (R : σ → τ → Prop) : Prop where
  name : ∀ {s t}, R s t → ∀ r : ρ, Candidates.name s r = Candidates.name t r
  isDeprecated : ∀ {s t}, R s t → ∀ r : ρ, Candidates.isDeprecated s r = Candidates.isDeprecated t r
  isAvailable : ∀ {s t}, R s t → ∀ r : ρ, (Candidates.isAvailable r s).1 = (Candidates.isAvailable r t).1 ∧
    R (Candidates.isAvailable r s).2 (Candidates.isAvailable r t).2

variable {R : σ → τ → Prop} (hC : CandidatesAlike ρ R)

include hC

theorem firstAvailable_alike (entries : List (Entry ρ)) {s : σ} {t : τ} (h : R s t) :
    (firstAvailable entries s).1 = (firstAvailable entries t).1 ∧
      R (firstAvailable entries s).2 (firstAvailable entries t).2 := by
  induction entries generalizing s t with
  | nil => exact ⟨rfl, h⟩
  | cons e entries ih =>
    obtain ⟨answer, s', t', hs, ht, hleft⟩ := exists_answer (hC.isAvailable h e.runtime)
    rw [firstAvailable, firstAvailable, hs, ht]
    cases answer with
    | true => exact ⟨rfl, hleft⟩
    | false => exact ih hleft

theorem forced_alike (selector : Selector ρ) (name : String) :
    Attempt.Alike R (selector.forced name) (selector.forced name) := by
  intro s t h
  rw [Selector.forced, Selector.forced]
  cases selector.registry.get? name with
  | none => exact ⟨rfl, h⟩
  | some r =>
    obtain ⟨answer, s', t', hs, ht, hleft⟩ := exists_answer (hC.isAvailable h r)
    dsimp only
    rw [hs, ht]
    cases answer with
    | true => exact ⟨rfl, hleft⟩
    | false =>
      dsimp only
      rw [hC.name hleft r]
      exact ⟨rfl, hleft⟩

theorem detect_alike (selector : Selector ρ) (excluded : List String) :
    Attempt.Alike R (selector.detect excluded) (selector.detect excluded) := by
  intro s t h
  have hcandidates : selector.registry.candidates s = selector.registry.candidates t := by
    unfold Registry.candidates
    exact List.filter_congr fun e _ => by rw [hC.isDeprecated h]
  obtain ⟨found, s', t', hs, ht, hleft⟩ := exists_answer (firstAvailable_alike hC
    ((selector.registry.candidates t).filter fun e => !excluded.contains e.name) h)
  unfold Selector.detect
  dsimp only
  rw [hcandidates, hs, ht]
  cases found <;> exact ⟨rfl, hleft⟩

/-- **Where runtimes answer alike, the same one is chosen.** -/
theorem select_alike (selector : Selector ρ) (excluded : List String) :
    Attempt.Alike R (selector.select excluded) (selector.select excluded) := by
  cases ho : selector.overrideName with
  | some name =>
    rw [Selector.select_of_override ho, Selector.select_of_override ho]
    exact forced_alike hC selector name
  | none =>
    rw [Selector.select_of_blank ho, Selector.select_of_blank ho]
    exact detect_alike hC selector excluded

end

section

variable {ρ σ : Type} [Candidates ρ σ]

/-- What is chosen has just said that it can be used. -/
theorem available_of_select {selector : Selector ρ} {excluded : List String} {s s' : σ} {r : ρ}
    (h : selector.select excluded s = (.ok r, s')) : ∃ s₁, Candidates.isAvailable r s₁ = (true, s') := by
  cases ho : selector.overrideName with
  | some name =>
    rw [Selector.select_of_override ho, Selector.forced] at h
    split at h
    · cases h
    · next found _ =>
      split at h
      · next heq =>
        cases h
        exact ⟨s, heq⟩
      · cases h
  | none =>
    rw [Selector.select_of_blank ho] at h
    unfold Selector.detect at h
    dsimp only at h
    split at h
    · next heq =>
      cases h
      obtain ⟨-, e, -, s₁, -, -, havailable, rfl⟩ := firstAvailable_eq_ok_iff.1 heq
      exact ⟨s₁, havailable⟩
    · cases h

end

/-! ### Asking -/

namespace Runtime

/-- Asking takes no key and starts nothing. -/
theorem isAvailable_world (r : Runtime ω π) (w : World ω π) :
    (r.isAvailable w).2.2.nextContext = w.nextContext ∧ (r.isAvailable w).2.2.pool = w.pool := by
  cases r with
  | disabled => exact ⟨rfl, rfl⟩
  | external x =>
    show (x.probed w).2.nextContext = _ ∧ (x.probed w).2.pool = _
    unfold External.probed
    split <;> exact ⟨rfl, rfl⟩

/-- Asked again, a runtime says the same. -/
theorem isAvailable_again (r : Runtime ω π) (w w' : World ω π) :
    (r.isAvailable w).2.1.isAvailable w' = ((r.isAvailable w).1, (r.isAvailable w).2.1, w') := by
  cases r with
  | disabled => rfl
  | external x =>
    show (external (x.probed w).1).isAvailable w' = _
    rw [isAvailable, External.isAvailable, External.probed_probed]
    rfl

end Runtime

/-! ### Other runtimes -/

/-- What was found, for a runtime of which nothing is written down. -/
def Probe.quietly : Probe ω π → Probe (Watched ω) π
  | .pending => .pending
  | .missing => .missing
  | .found launcher m => .found (fun d => Watched.quietly (launcher d)) m

/-- A runtime on a watched host of which nothing is written down. -/
def Runtime.quietly : Runtime ω π → Runtime (Watched ω) π
  | .external x => .external
    { descriptor := x.descriptor
      locator := fun program => Watched.quietly (x.locator program)
      spawn := fun c d => Watched.quietly (x.spawn c d)
      probe := x.probe.quietly }
  | .disabled => .disabled

theorem resolve_quietly (locator : Locator ω) (candidates : List String) (host : ω) (inquiries : List Inquiry) :
    Launch.resolve (fun program => Watched.quietly (locator program)) candidates ⟨host, inquiries⟩ =
      ((Launch.resolve locator candidates host).1, ⟨(Launch.resolve locator candidates host).2, inquiries⟩) := by
  induction candidates generalizing host with
  | nil => rfl
  | cons candidate candidates ih =>
    rw [Launch.resolve, Launch.resolve]
    cases Launch.candidateWords candidate with
    | nil => exact ih host
    | cons program arguments =>
      dsimp only [Watched.quietly]
      obtain ⟨⟨path, host'⟩, hlocated⟩ : ∃ a, locator program host = a := ⟨_, rfl⟩
      rw [hlocated]
      cases path with
      | some path => rfl
      | none => exact ih host'

/-- Asking another runtime writes nothing down. -/
theorem Runtime.isAvailable_quietly (r : Runtime ω π) (w : World ω π) (inquiries : List Inquiry) :
    r.quietly.isAvailable (w.watched inquiries) = ((r.isAvailable w).1, (r.isAvailable w).2.1.quietly,
      (r.isAvailable w).2.2.watched inquiries) := by
  cases r with
  | disabled => rfl
  | external x =>
    obtain ⟨descriptor, locator, spawn, probe⟩ := x
    cases probe with
    | pending =>
      have hresolve := resolve_quietly locator descriptor.commands w.host inquiries
      obtain ⟨⟨found, host⟩, hr⟩ : ∃ a, Launch.resolve locator descriptor.commands w.host = a := ⟨_, rfl⟩
      have hr' : Launch.resolve (fun program => Watched.quietly (locator program)) descriptor.commands
          (w.watched inquiries).host = (found, ⟨host, inquiries⟩) := by
        rw [hr] at hresolve
        exact hresolve
      simp only [quietly, Probe.quietly, isAvailable, External.isAvailable, External.probed, hr, hr']
      cases found <;> rfl
    | missing => rfl
    | found launcher m => rfl

theorem Runtime.name_quietly (r : Runtime ω π) : r.quietly.name = r.name := by
  cases r <;> rfl

theorem Runtime.isDeprecated_quietly (r : Runtime ω π) : r.quietly.isDeprecated = r.isDeprecated := by
  cases r <;> rfl

/-! ### Desks -/

namespace Desk

theorem isAvailable_of_get? {desk : Desk ω π} {id : RuntimeId} {r : Runtime ω π} (h : desk.get? id = some r) :
    isAvailable id desk = ((r.isAvailable desk.world).1,
      { desk with
        world := (r.isAvailable desk.world).2.2
        runtimes := desk.runtimes.set id (r.isAvailable desk.world).2.1 }) := by
  unfold isAvailable
  rw [step_of_get? h]
  rfl

theorem isAvailable_of_none {desk : Desk ω π} {id : RuntimeId} (h : desk.get? id = none) :
    isAvailable id desk = (false, desk) := by
  unfold isAvailable step
  rw [h]
  rfl

theorem get?_isAvailable_of_ne {id other : RuntimeId} (h : other ≠ id) (desk : Desk ω π) :
    (isAvailable other desk).2.get? id = desk.get? id :=
  get?_step_of_ne h Runtime.isAvailable

variable (d : Descriptor) (locator : Locator ω) (starter : Starter ω π) (place : RuntimeId)

/-- A desk, and the same on a host that is watched for the runtime at a place. -/
structure Mirrors (f : Findings) (desk : Desk ω π) (desk' : Desk (Watched ω) π) : Prop where
  own : ∃ r r', desk.get? place = some r ∧ desk'.get? place = some r' ∧
    Runtime.Mirrors d locator starter f (r, desk.world) (r', desk'.world)
  others : ∀ id, id ≠ place → desk'.get? id = (desk.get? id).map Runtime.quietly

/-- Both, when the runtime may have looked for its commands. -/
def Looks (f : Findings) (desk : Desk ω π) (desk' : Desk (Watched ω) π) : Prop :=
  ∃ f', Findings.Leads d.commands f [] f' ∧ Mirrors d locator starter place f' desk desk'

variable {d locator starter place} {f : Findings} {desk : Desk ω π} {desk' : Desk (Watched ω) π}

theorem Mirrors.nameOf (h : Mirrors d locator starter place f desk desk') (id : RuntimeId) :
    desk'.nameOf id = desk.nameOf id := by
  unfold Desk.nameOf
  by_cases hid : id = place
  · subst hid
    obtain ⟨r, r', hr, hr', hm⟩ := h.own
    rw [hr, hr', Option.map_some, Option.map_some, hm.name]
  · have hname : (Runtime.name ∘ Runtime.quietly : Runtime ω π → String) = Runtime.name :=
      funext Runtime.name_quietly
    rw [h.others id hid, Option.map_map, hname]

theorem Mirrors.isDeprecated (h : Mirrors d locator starter place f desk desk') (id : RuntimeId) :
    (desk'.get? id).any Runtime.isDeprecated = (desk.get? id).any Runtime.isDeprecated := by
  by_cases hid : id = place
  · subst hid
    obtain ⟨r, r', hr, hr', hm⟩ := h.own
    rw [hr, hr', Option.any_some, Option.any_some, hm.isDeprecated]
  · rw [h.others id hid, Option.any_map]
    simp only [Runtime.isDeprecated_quietly]

/-- **Asking a runtime on a desk** may have the watched one look for its commands. -/
theorem Mirrors.isAvailable (h : Mirrors d locator starter place f desk desk') (id : RuntimeId) :
    (Desk.isAvailable id desk).1 = (Desk.isAvailable id desk').1 ∧
      Looks d locator starter place f (Desk.isAvailable id desk).2 (Desk.isAvailable id desk').2 := by
  obtain ⟨r, r', hr, hr', hm⟩ := h.own
  by_cases hid : id = place
  · subst hid
    obtain ⟨f', hleads, -, hanswer, hanswer', hm'⟩ := hm.isAvailable
    have hothers : ∀ other, other ≠ id → (Desk.isAvailable id desk').2.get? other =
        ((Desk.isAvailable id desk).2.get? other).map Runtime.quietly := by
      intro other ho
      rw [get?_isAvailable_of_ne (Ne.symm ho), get?_isAvailable_of_ne (Ne.symm ho), h.others other ho]
    refine ⟨?_, f', hleads, ?_, hothers⟩
    · rw [isAvailable_of_get? hr, isAvailable_of_get? hr', hanswer, hanswer']
    · rw [isAvailable_of_get? hr, isAvailable_of_get? hr']
      exact ⟨_, _, get?_set hr _ _, get?_set hr' _ _, hm'⟩
  · -- Another runtime may change the host when it looks for its commands, but of that nothing is written down.
    have hstays : (Desk.isAvailable id desk).2.get? place = some r ∧
        (Desk.isAvailable id desk').2.get? place = some r' :=
      ⟨(get?_isAvailable_of_ne hid desk).trans hr, (get?_isAvailable_of_ne hid desk').trans hr'⟩
    have hother := h.others id hid
    cases hget : desk.get? id with
    | none =>
      rw [hget, Option.map_none] at hother
      rw [isAvailable_of_none hget, isAvailable_of_none hother]
      exact ⟨rfl, f, .refl d.commands f, h⟩
    | some q =>
      rw [hget, Option.map_some] at hother
      have hquiet := q.isAvailable_quietly desk.world (f.inquiries d.bootstrap)
      rw [← hm.world] at hquiet
      have hanswer := isAvailable_of_get? hget
      have hanswer' := isAvailable_of_get? hother
      rw [hquiet] at hanswer'
      refine ⟨?_, f, .refl d.commands f, ⟨r, r', hstays.1, hstays.2, ?_⟩, ?_⟩
      · rw [hanswer, hanswer']
      · rw [hanswer, hanswer']
        exact hm.beside rfl
      · intro other ho
        by_cases hsame : id = other
        · subst hsame
          rw [hanswer, hanswer', get?_set hget, get?_set hother, Option.map_some]
        · rw [get?_isAvailable_of_ne hsame, get?_isAvailable_of_ne hsame, h.others other ho]

theorem exists_of_isAvailable {desk desk' : Desk ω π} {id : RuntimeId}
    (h : Candidates.isAvailable id desk = (true, desk')) :
    ∃ r, desk'.get? id = some r ∧ ∀ w, (r.isAvailable w).1 = true := by
  have hdesk : Desk.isAvailable id desk = (true, desk') := h
  cases hr : desk.get? id with
  | none =>
    rw [isAvailable_of_none hr] at hdesk
    cases hdesk
  | some r =>
    rw [isAvailable_of_get? hr] at hdesk
    obtain ⟨hanswer, rfl⟩ := Prod.mk.inj hdesk
    refine ⟨_, get?_set hr _ _, fun w => ?_⟩
    rw [Runtime.isAvailable_again, hanswer]

/-- On the two desks runtimes answer alike. -/
theorem candidatesAlike (f : Findings) : CandidatesAlike RuntimeId (Looks d locator starter place f) where
  name := by
    rintro desk desk' ⟨f', -, h⟩ id
    exact (h.nameOf id).symm
  isDeprecated := by
    rintro desk desk' ⟨f', -, h⟩ id
    exact (h.isDeprecated id).symm
  isAvailable := by
    rintro desk desk' ⟨f', hleads, h⟩ id
    obtain ⟨hanswer, f'', hleads', h'⟩ := h.isAvailable id
    exact ⟨hanswer, f'', hleads.trans hleads', h'⟩

end Desk

/-! ### Errands -/

/-- Something that may happen while there is a runtime. -/
inductive Errand (ω π : Type) where
  /-- It is asked whether it is available. -/
  | ask
  | use (op : Op)
  /-- One is chosen among it and others, some of them before it and some behind. -/
  | select (before after : List (Runtime ω π)) (selector : Selector RuntimeId) (excluded : List String)
  /-- Something else goes on in the world. -/
  | meanwhile (change : World ω π → World ω π)

namespace Errand

/-- Whether a context is to be opened. -/
def opens : Errand ω π → Bool
  | use op => op.takesKey
  | _ => false

/-- Whether the runtime is asked.  In a selection it may be, or not. -/
def asks : Errand ω π → Bool
  | ask => true
  | use op => op.takesKey
  | _ => false

/-- Whether nobody asks the runtime. -/
def isIdle : Errand ω π → Bool
  | use op => !op.takesKey
  | meanwhile _ => true
  | _ => false

/-- The same on a watched host, on which nothing is written down for others. -/
def watched : Errand ω π → Errand (Watched ω) π
  | ask => .ask
  | use op => .use op
  | select before after selector excluded =>
    .select (before.map Runtime.quietly) (after.map Runtime.quietly) selector excluded
  | meanwhile change => .meanwhile fun w => (change w.unwatched).watched w.host.inquiries

theorem asks_of_isIdle {e : Errand ω π} (h : e.isIdle) : e.asks = false := by
  cases e with
  | use op => exact (Bool.not_eq_true' op.takesKey).mp h
  | meanwhile change => rfl
  | _ => cases h

end Errand

/-- How what is known grows with errands. -/
structure Findings.Grows (commands : List String) (errands : List (Errand ω π)) (f : Findings) (more : List Answer)
    (f' : Findings) : Prop where
  leads : Leads commands f more f'
  /-- Nothing is launched unless a context is to be opened. -/
  unopened : (∀ e ∈ errands, e.opens = false) → more = []
  /-- Who is asked has looked. -/
  asked : (∃ e ∈ errands, e.asks) → f' ≠ .pending
  /-- Who is not asked does not look. -/
  idle : (∀ e ∈ errands, e.isIdle) → f' = f

namespace Findings.Grows

variable {commands : List String} {errands errands' : List (Errand ω π)} {f f' f'' : Findings}
  {more more' : List Answer}

theorem refl (commands : List String) (f : Findings) : Grows commands ([] : List (Errand ω π)) f [] f where
  leads := .refl commands f
  unopened := fun _ => rfl
  asked := by
    rintro ⟨e, he, -⟩
    cases he
  idle := fun _ => rfl

theorem trans (h : Grows commands errands f more f') (h' : Grows commands errands' f' more' f'') :
    Grows commands (errands ++ errands') f (more ++ more') f'' where
  leads := h.leads.trans h'.leads
  unopened := by
    intro hall
    rw [List.forall_mem_append] at hall
    rw [h.unopened hall.1, h'.unopened hall.2, List.append_nil]
  asked := by
    rintro ⟨e, he, hasks⟩
    rcases List.mem_append.1 he with he | he
    · exact h'.leads.ne_pending (h.asked ⟨e, he, hasks⟩)
    · exact h'.asked ⟨e, he, hasks⟩
  idle := by
    intro hall
    rw [List.forall_mem_append] at hall
    rw [h'.idle hall.2, h.idle hall.1]

/-- With one errand. -/
theorem single {e : Errand ω π} (hleads : Leads commands f more f') (hopens : e.opens = false → more = [])
    (hasks : e.asks → f' ≠ .pending) (hidle : e.isIdle → f' = f) : Grows commands [e] f more f' where
  leads := hleads
  unopened := fun hall => hopens (hall e (List.mem_singleton_self e))
  asked := by
    rintro ⟨e', he', hasks'⟩
    rw [List.mem_singleton.1 he'] at hasks'
    exact hasks hasks'
  idle := fun hall => hidle (hall e (List.mem_singleton_self e))

/-- Where nobody asks, nothing becomes known. -/
theorem of_isIdle {e : Errand ω π} (he : e.isIdle) : Grows commands [e] f [] f :=
  .single (.refl commands f) (fun _ => rfl)
    (fun hasks => absurd hasks (Bool.eq_false_iff.1 (Errand.asks_of_isIdle he))) (fun _ => rfl)

end Findings.Grows

namespace Stage

/-- The desk at which a stage's runtime stands among others. -/
def desk (before after : List (Runtime ω π)) (g : Stage (Runtime ω π) (World ω π)) : Desk ω π where
  world := g.world
  runtimes := before ++ g.runtime :: after

theorem get?_desk (before after : List (Runtime ω π)) (g : Stage (Runtime ω π) (World ω π)) :
    (g.desk before after).get? before.length = some g.runtime := by
  rw [Desk.get?, desk, List.getElem?_append_right (Nat.le_refl _), Nat.sub_self, List.getElem?_cons_zero]

/-- After the runtime is asked. -/
def asked (g : Stage (Runtime ω π) (World ω π)) : Stage (Runtime ω π) (World ω π) where
  runtime := (g.runtime.isAvailable g.world).2.1
  world := (g.runtime.isAvailable g.world).2.2
  contexts := g.contexts

variable [Peer π]

/-- After an errand. -/
def errand (g : Stage (Runtime ω π) (World ω π)) : Errand ω π → Stage (Runtime ω π) (World ω π)
  | .ask => g.asked
  | .use op => g.step op
  | .select before after selector excluded =>
    let desk := (selector.select excluded (g.desk before after)).2
    { g with
      runtime := (desk.get? before.length).getD g.runtime
      world := desk.world }
  | .meanwhile change => { g with world := change g.world }

/-- After one errand after the other. -/
def errands (g : Stage (Runtime ω π) (World ω π)) (errands : List (Errand ω π)) :
    Stage (Runtime ω π) (World ω π) :=
  errands.foldl errand g

/-- **Who opens a context asks first.** -/
theorem step_asked {op : Op} (hop : op.takesKey) (g : Stage (Runtime ω π) (World ω π)) :
    g.asked.step op = g.step op := by
  have hattempt : ∀ {α : Type} (preamble : String) (body : Attempt (Context PipeSession × World ω π) α),
      g.asked.attempt (Runtime.withContext preamble body) = g.attempt (Runtime.withContext preamble body) := by
    intro α preamble body
    have hasked := Runtime.withContext_asked preamble body g.runtime g.world
    unfold attempt
    exact congrArg (fun s => (⟨s.2.1, s.2.2, g.contexts⟩ : Stage (Runtime ω π) (World ω π))) hasked
  cases op with
  | compile preamble =>
    have hasked := Runtime.compile_asked preamble g.runtime g.world
    exact congrArg (fun s => (⟨s.2.1, s.2.2, g.contexts ++ s.1.toOption.toList⟩ :
      Stage (Runtime ω π) (World ω π))) hasked
  | exec source => exact hattempt "" _
  | eval source => exact hattempt "" _
  | withContext preamble body => exact hattempt preamble body.run
  | _ => cases hop

/-! ### Side by side -/

variable (d : Descriptor) (locator : Locator ω) (starter : Starter ω π)

/-- A stage, and the same on a watched host. -/
structure Mirrors (f : Findings) (g : Stage (Runtime ω π) (World ω π))
    (g' : Stage (Runtime (Watched ω) π) (World (Watched ω) π)) : Prop where
  runtimes : Runtime.Mirrors d locator starter f (g.runtime, g.world) (g'.runtime, g'.world)
  contexts : g'.contexts = g.contexts

variable {d locator starter} {f : Findings} {g : Stage (Runtime ω π) (World ω π)}
  {g' : Stage (Runtime (Watched ω) π) (World (Watched ω) π)}

omit [Peer π] in
theorem Mirrors.asked (h : Mirrors d locator starter f g g') :
    ∃ f', Findings.Leads d.commands f [] f' ∧ f' ≠ .pending ∧ Mirrors d locator starter f' g.asked g'.asked := by
  obtain ⟨f', hleads, hne, -, -, hm⟩ := h.runtimes.isAvailable
  exact ⟨f', hleads, hne, hm, h.contexts⟩

omit [Peer π] in
theorem Mirrors.attempt {α : Type} {x : Attempt (Runtime ω π × World ω π) α}
    {y : Attempt (Runtime (Watched ω) π × World (Watched ω) π) α}
    (hxy : Attempt.Alike (Runtime.Follows d locator starter f) x y) (h : Mirrors d locator starter f g g') :
    Findings.Follows d.commands (Mirrors d locator starter) f (g.attempt x) (g'.attempt y) := by
  obtain ⟨-, more, f', hleads, hm⟩ := hxy _ _ (.refl h.runtimes)
  exact ⟨more, f', hleads, hm, h.contexts⟩

omit [Peer π] in
theorem Mirrors.enroll {x : Attempt (Runtime ω π × World ω π) (Context PipeSession)}
    {y : Attempt (Runtime (Watched ω) π × World (Watched ω) π) (Context PipeSession)}
    (hxy : Attempt.Alike (Runtime.Follows d locator starter f) x y) (h : Mirrors d locator starter f g g') :
    Findings.Follows d.commands (Mirrors d locator starter) f (g.enroll x) (g'.enroll y) := by
  obtain ⟨hresult, more, f', hleads, hm⟩ := hxy _ _ (.refl h.runtimes)
  refine ⟨more, f', hleads, hm, ?_⟩
  rw [Stage.enroll, Stage.enroll, h.contexts, hresult]

theorem Mirrors.act (h : Mirrors d locator starter f g g') (k : Nat) (op : ContextOp) :
    Mirrors d locator starter f (g.act k op) (g'.act k op) := by
  rw [Stage.act, Stage.act, h.contexts]
  cases g.contexts[k]? with
  | none => exact h
  | some c =>
    obtain ⟨-, hc, hw⟩ := ContextOp.run_alike (World.sessionsAlike_watched (f.inquiries d.bootstrap)) op
      (c, g.world) (c, g'.world) ⟨rfl, h.runtimes.world⟩
    refine ⟨h.runtimes.beside hw, ?_⟩
    dsimp only
    rw [hc]

/-- What is done with the runtime where a context is opened. -/
theorem Mirrors.step (h : Mirrors d locator starter f g g') {op : Op} (hop : op.takesKey) :
    Findings.Follows d.commands (Mirrors d locator starter) f (g.step op) (g'.step op) := by
  have hsessions : ∀ inquiries, SessionsAlike PipeSession (World.Bears (ω := ω) (π := π) inquiries) :=
    World.sessionsAlike_watched
  cases op with
  | compile preamble => exact h.enroll (Runtime.compile_watched f preamble)
  | exec source =>
    have hrun := fun inquiries => ContextOp.run_alike (hsessions inquiries) (.exec source)
    exact h.attempt (Runtime.withContext_watched f "" hrun)
  | eval source =>
    have hrun := fun inquiries => ContextOp.run_alike (hsessions inquiries) (.eval source)
    exact h.attempt (Runtime.withContext_watched f "" hrun)
  | withContext preamble body =>
    exact h.attempt (Runtime.withContext_watched f preamble fun inquiries => body.run_alike (hsessions inquiries))
  | _ => cases hop

omit [Peer π] in
theorem Mirrors.desk (h : Mirrors d locator starter f g g') (before after : List (Runtime ω π)) :
    Desk.Mirrors d locator starter before.length f (g.desk before after)
      (g'.desk (before.map Runtime.quietly) (after.map Runtime.quietly)) := by
  have hown := get?_desk (before.map Runtime.quietly) (after.map Runtime.quietly) g'
  rw [List.length_map] at hown
  refine ⟨⟨_, _, get?_desk before after g, hown, h.runtimes⟩, ?_⟩
  intro id hid
  rw [Desk.get?, Desk.get?, Stage.desk, Stage.desk]
  dsimp only
  rcases Nat.lt_or_gt_of_ne hid with hlt | hgt
  · rw [List.getElem?_append_left hlt, List.getElem?_append_left (by rwa [List.length_map]), List.getElem?_map]
  · have hbehind : ∀ {β : Type} (l l' : List β) (a : β) (k : Nat),
        (l ++ a :: l')[l.length + (k + 1)]? = l'[k]? := by
      intro β l l' a k
      rw [List.getElem?_append_right (Nat.le_add_right _ _), Nat.add_sub_cancel_left, List.getElem?_cons_succ]
    obtain ⟨k, rfl⟩ : ∃ k : Nat, id = before.length + (k + 1) := Nat.exists_eq_add_of_lt hgt
    have hquiet := hbehind (before.map Runtime.quietly) (after.map Runtime.quietly) g'.runtime k
    rw [List.length_map] at hquiet
    rw [hbehind, hquiet, List.getElem?_map]

/-- **One errand.** -/
theorem Mirrors.errand (h : Mirrors d locator starter f g g') (e : Errand ω π) :
    ∃ more f', Findings.Grows d.commands [e] f more f' ∧
      Mirrors d locator starter f' (g.errand e) (g'.errand e.watched) := by
  cases e with
  | ask =>
    obtain ⟨f', hleads, hne, hm⟩ := h.asked
    exact ⟨[], f', .single hleads (fun _ => rfl) (fun _ => hne) (fun h => absurd h Bool.false_ne_true), hm⟩
  | use op =>
    by_cases hop : op.takesKey
    · obtain ⟨f', hleads, hne, hasked⟩ := h.asked
      obtain ⟨more, f'', hleads', hm⟩ := hasked.step hop
      -- Whether it is asked before does not matter, so what is known when the context is opened is not pending.
      rw [step_asked hop, step_asked hop] at hm
      have hopens : (Errand.use op : Errand ω π).opens ≠ false := Bool.ne_false_iff.2 hop
      have hidle : (Errand.use op : Errand ω π).isIdle ≠ true := by
        rw [Errand.isIdle, hop]
        exact Bool.false_ne_true
      exact ⟨more, f'', .single (hleads.trans hleads') (fun h => absurd h hopens)
        (fun _ => hleads'.ne_pending hne) (fun h => absurd h hidle), hm⟩
    · refine ⟨[], f, .of_isIdle ((Bool.not_eq_true' _).mpr (Bool.eq_false_iff.2 hop)), ?_⟩
      cases op with
      | act k op => exact h.act k op
      | reset => exact ⟨h.runtimes.reset, h.contexts⟩
      | shutdown => exact ⟨h.runtimes.shutdown, h.contexts⟩
      | _ => exact absurd rfl hop
  | select before after selector excluded =>
    obtain ⟨-, f', hleads, hm⟩ := select_alike (Desk.candidatesAlike f) selector excluded _ _
      ⟨f, .refl d.commands f, h.desk before after⟩
    obtain ⟨r, r', hr, hr', hown⟩ := hm.own
    refine ⟨[], f', .single hleads (fun _ => rfl) (fun h => absurd h Bool.false_ne_true)
      (fun h => absurd h Bool.false_ne_true), ?_, h.contexts⟩
    show Runtime.Mirrors d locator starter f' (Option.getD _ _, _)
      (Option.getD (Desk.get? _ (before.map Runtime.quietly).length) _, _)
    rw [List.length_map, hr, hr']
    exact hown
  | meanwhile change =>
    refine ⟨[], f, .of_isIdle rfl, h.runtimes.beside ?_, h.contexts⟩
    -- The change does not see what is written down, and leaves it.
    show (change g'.world.unwatched).watched g'.world.host.inquiries = _
    rw [h.runtimes.world]
    rfl

/-- **All errands.** -/
theorem Mirrors.errands (h : Mirrors d locator starter f g g') (errands : List (Errand ω π)) :
    ∃ more f', Findings.Grows d.commands errands f more f' ∧
      Mirrors d locator starter f' (g.errands errands) (g'.errands (errands.map Errand.watched)) := by
  induction errands generalizing f g g' with
  | nil => exact ⟨[], f, .refl d.commands f, h⟩
  | cons e errands ih =>
    obtain ⟨more, f', hgrows, hstep⟩ := h.errand e
    obtain ⟨more', f'', hgrows', hrest⟩ := ih hstep
    exact ⟨more ++ more', f'', hgrows.trans hgrows', hrest⟩

end Stage

/-! ### Answers -/

namespace Runtime

variable [Peer π]

/-- What a runtime does of whose commands none was located, apart from looking for them: it refuses, and no key for
a context is taken. -/
structure Lacks (name : String) (r : Runtime ω π) (w : World ω π) : Prop where
  unavailable : (r.isAvailable w).1 = false
  nextContext : (r.isAvailable w).2.2.nextContext = w.nextContext
  compile : ∀ preamble : String,
    Runtime.compile preamble (r, w) = (.error (.runtimeUnavailable name), (r.isAvailable w).2)
  withContext : ∀ (α : Type) (preamble : String) (body : Attempt (Context PipeSession × World ω π) α),
    Runtime.withContext preamble body (r, w) = (.error (.runtimeUnavailable name), (r.isAvailable w).2)
  exec : ∀ source : String,
    Runtime.exec source (r, w) = (.error (.runtimeUnavailable name), (r.isAvailable w).2)
  eval : ∀ source : String,
    Runtime.eval source (r, w) = (.error (.runtimeUnavailable name), (r.isAvailable w).2)

variable {d : Descriptor} {locator : Locator ω} {starter : Starter ω π} {sought : List (String × Option String)}

theorem Mirrors.compile_missing {s : Runtime ω π × World ω π} {s' : Runtime (Watched ω) π × World (Watched ω) π}
    (h : Mirrors d locator starter (.missing sought) s s') (preamble : String) :
    Runtime.compile preamble s = (.error (.runtimeUnavailable d.name), s) := by
  cases h with
  | external h =>
    obtain ⟨htracks, -⟩ := h
    cases htracks
    unfold Runtime.compile
    dsimp only
    rw [External.compile_of_missing rfl]

theorem Mirrors.lacks {r : Runtime ω π} {w : World ω π} {s' : Runtime (Watched ω) π × World (Watched ω) π}
    (h : Mirrors d locator starter (.missing sought) (r.isAvailable w).2 s')
    (hanswer : (r.isAvailable w).1 = false) : Lacks d.name r w := by
  have hcompile : ∀ preamble : String, Runtime.compile preamble (r, w) =
      (.error (.runtimeUnavailable d.name), (r.isAvailable w).2) := by
    intro preamble
    rw [← compile_asked]
    exact h.compile_missing preamble
  have hwithContext : ∀ (α : Type) (preamble : String) (body : Attempt (Context PipeSession × World ω π) α),
      Runtime.withContext preamble body (r, w) = (.error (.runtimeUnavailable d.name), (r.isAvailable w).2) := by
    intro α preamble body
    exact Attempt.bind_apply_of_error (hcompile preamble) _
  exact ⟨hanswer, (r.isAvailable_world w).1, hcompile, hwithContext, fun source => hwithContext _ "" _,
    fun source => hwithContext _ "" _⟩

end Runtime

namespace Stage

variable [Peer π] {d : Descriptor} {locator : Locator ω} {starter : Starter ω π} {f : Findings}
  {g : Stage (Runtime ω π) (World ω π)} {g' : Stage (Runtime (Watched ω) π) (World (Watched ω) π)}

/-- Where no context is opened, nothing is started. -/
theorem length_errand {e : Errand ω π} (he : e.opens = false) (hchange : ∀ change, e ≠ .meanwhile change)
    (g : Stage (Runtime ω π) (World ω π)) :
    (g.errand e).world.pool.processes.length = g.world.pool.processes.length := by
  cases e with
  | ask =>
    have hpool : (g.errand .ask).world.pool = g.world.pool := (g.runtime.isAvailable_world g.world).2
    rw [hpool]
  | use op =>
    show (g.step op).world.pool.processes.length = _
    cases op with
    | act k op =>
      rw [step, act]
      cases g.contexts[k]? with
      | none => rfl
      | some c => exact (op.serves (c, g.world)).length
    | reset =>
      rw [step]
      cases g.runtime with
      | external x => exact (x.serves_reset g.world).length
      | disabled => rfl
    | shutdown =>
      rw [step]
      cases g.runtime with
      | external x => exact (x.serves_shutdown g.world).length
      | disabled => rfl
    | _ => cases he
  | select before after selector excluded =>
    have hpool : (g.errand (.select before after selector excluded)).world.pool = g.world.pool :=
      (Desk.asked_select selector excluded (g.desk before after)).pool
    rw [hpool]
  | meanwhile change => exact absurd rfl (hchange change)

/-- A runtime that is chosen can be used. -/
theorem isAvailable_of_select {before after : List (Runtime ω π)} {selector : Selector RuntimeId}
    {excluded : List String} (h : (selector.select excluded (g.desk before after)).1 = .ok before.length)
    (w : World ω π) : ((g.errand (.select before after selector excluded)).runtime.isAvailable w).1 = true := by
  obtain ⟨⟨result, desk⟩, hs⟩ : ∃ a, selector.select excluded (g.desk before after) = a := ⟨_, rfl⟩
  rw [hs] at h
  have hresult : result = .ok before.length := h
  subst hresult
  obtain ⟨asked, hasked⟩ := available_of_select hs
  obtain ⟨r, hr, havailable⟩ := Desk.exists_of_isAvailable hasked
  rw [errand]
  dsimp only
  rw [hs, hr]
  exact havailable w

variable (d) in
/-- What is said of a stage by what its runtime knows, and by the same stage on a watched host. -/
structure Accounts (f : Findings) (g : Stage (Runtime ω π) (World ω π))
    (g' : Stage (Runtime (Watched ω) π) (World (Watched ω) π)) : Prop where
  /-- A watched host changes nothing, and on it stands what the runtime has asked for. -/
  world : g'.world = g.world.watched (f.inquiries d.bootstrap)
  contexts : g'.contexts = g.contexts
  /-- When the runtime has been asked, it has looked, and answers by what it knows. -/
  answers : ∃ f', Findings.Leads d.commands f [] f' ∧ f' ≠ .pending ∧
    g'.asked.world = g.asked.world.watched (f'.inquiries d.bootstrap) ∧
    (g.runtime.isAvailable g.world).1 = f'.isUsable ∧
    ∀ sought, f' = .missing sought → Runtime.Lacks d.name g.runtime g.world
  chosen : ∀ before after selector excluded,
    (selector.select excluded (g.desk before after)).1 = .ok before.length → ∀ w,
      ((g.errand (.select before after selector excluded)).runtime.isAvailable w).1 = true
  /-- Where no context is opened, nothing is started. -/
  started : ∀ e : Errand ω π, e.opens = false → (∀ change, e ≠ .meanwhile change) →
    (g.errand e).world.pool.processes.length = g.world.pool.processes.length

theorem Mirrors.accounts (h : Mirrors d locator starter f g g') : Accounts d f g g' where
  world := h.runtimes.world
  contexts := h.contexts
  answers := by
    obtain ⟨f', hleads, hne, hanswer, -, hm⟩ := h.runtimes.isAvailable
    refine ⟨f', hleads, hne, hm.world, hanswer, ?_⟩
    rintro sought rfl
    exact hm.lacks hanswer
  chosen := fun _ _ _ _ hchosen => isAvailable_of_select hchosen
  started := fun _ he hchange => length_errand he hchange g

/-- A runtime that has not looked for its commands. -/
def unprobed (d : Descriptor) (locator : Locator ω) (starter : Starter ω π) (world : World ω π) :
    Stage (Runtime ω π) (World ω π) where
  runtime := .external { descriptor := d, locator, spawn := starter.spawn }
  world

omit [Peer π] in
theorem mirrors_unprobed (d : Descriptor) (locator : Locator ω) (starter : Starter ω π) (world : World ω π) :
    Mirrors d locator starter .pending (unprobed d locator starter world)
      (unprobed d locator.watched starter.watched (world.watched [])) :=
  ⟨.external ⟨.pending, rfl⟩, rfl⟩

/-- **A runtime looks for its commands once**, when it is first asked or a context is to be opened, and starts only
what it found then, and only where a context is to be opened.  The locator and the starter may answer differently
each time, the world may change between errands, and so it goes on with the errands that come later.  Commands on
a host are started by such a starter. -/
theorem probes_once (d : Descriptor) (locator : Locator ω) (starter : Starter ω π) (world : World ω π)
    (errands : List (Errand ω π)) :
    (∃ started found, Findings.Grows d.commands errands .pending started found ∧
      Accounts d found ((unprobed d locator starter world).errands errands)
        ((unprobed d locator.watched starter.watched (world.watched [])).errands (errands.map Errand.watched)) ∧
      ∀ later, ∃ more known, Findings.Grows d.commands later found more known ∧
        Accounts d known ((unprobed d locator starter world).errands (errands ++ later))
          ((unprobed d locator.watched starter.watched (world.watched [])).errands
            ((errands ++ later).map Errand.watched))) ∧
    ∀ c, Launch.spawn c = Starter.host.spawn c := by
  refine ⟨?_, Launch.spawn_eq⟩
  obtain ⟨started, found, hgrows, hm⟩ := (mirrors_unprobed d locator starter world).errands errands
  refine ⟨started, found, hgrows, hm.accounts, ?_⟩
  intro later
  obtain ⟨more, known, hgrows', hm'⟩ := hm.errands later
  refine ⟨more, known, hgrows', ?_⟩
  rw [List.map_append, Stage.errands, Stage.errands, List.foldl_append, List.foldl_append]
  exact hm'.accounts

end Stage

end EnginePipe.Bridge
