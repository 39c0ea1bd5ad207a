import EnginePipe.Proofs.Bridge.Places

/-!
# Engines are left tidy

Whatever is done with a runtime, a living engine keeps a scope for exactly the open contexts that were
attached to it.  A context is forgotten at the engine it was attached to, once and after everything else that
is said about it, and no other engine hears of it.  The invariant says this of all frames that engines
received; a frame is added to the frames of one engine at a time.

* `Tidy`: the invariant.
* `Tidy.receive`: **one frame more**; `Tidy.evaluate`, `Tidy.release`: what the frames of a session do.
* `Orderly.kept`: each step of a run keeps the invariant.
* `Stage.tidy_reached`: **engines are tidy in every reached state**.
-/

namespace EnginePipe

open Channel (EngineView)
open Launch (Handle ProcessId Station World)

/-! ### What is seen after a change -/

namespace Scene

variable {s : Scene} {p q : ProcessId}

theorem get_change {f : EngineView → EngineView} {u : EngineView} (h : (s.change p f).views[q]? = some u) :
    (q = p ∧ ∃ v, s.views[p]? = some v ∧ f v = u) ∨ (q ≠ p ∧ s.views[q]? = some u) := by
  rw [change, List.getElem?_modify] at h
  obtain ⟨v, hv, hfv⟩ := Option.map_eq_some_iff.1 h
  by_cases hq : p = q
  · rw [if_pos hq] at hfv
    exact Or.inl ⟨hq.symm, v, hq ▸ hv, hfv⟩
  · rw [if_neg hq] at hfv
    exact Or.inr ⟨Ne.symm hq, hfv ▸ hv⟩

theorem get_change_self {f : EngineView → EngineView} {v : EngineView} (h : s.views[p]? = some v) :
    (s.change p f).views[p]? = some (f v) := by
  rw [change, List.getElem?_modify_eq, h]
  rfl

theorem get_change_of_ne {f : EngineView → EngineView} (h : q ≠ p) :
    (s.change p f).views[q]? = s.views[q]? :=
  List.getElem?_modify_ne f s.views (Ne.symm h)

end Scene

namespace Bridge

/-! ### Tidy scenes -/

/-- Engines keep scopes for the open contexts that were attached to them, and heard of each context in
order.  `n` keys were handed out. -/
structure Tidy (first : ContextId) (n : Nat) (s : Scene) (isOpen : ContextId → ProcessId → Prop) : Prop where
  keys : ∀ {p : ProcessId} {v : EngineView}, s.views[p]? = some v → v.isAlive →
    ∀ id, id ∈ v.table.keys ↔ isOpen id p
  /-- Nothing is heard of a context after it was torn down. -/
  order : ∀ {p : ProcessId} {v : EngineView}, s.views[p]? = some v →
    v.received.Pairwise fun a b => a.isTeardown → b.context ≠ a.context
  /-- No two engines hear of one context. -/
  home : ∀ {p q : ProcessId} {v u : EngineView} {a b : Request}, s.views[p]? = some v →
    s.views[q]? = some u → a ∈ v.received → b ∈ u.received → a.context = b.context → p = q
  /-- The engine of an open context has heard of it, and not that it was torn down. -/
  heard : ∀ {id p}, isOpen id p → ∃ v, s.views[p]? = some v ∧ ∃ a ∈ v.received, a.context = id
  untorn : ∀ {id p} {v : EngineView} {a : Request}, isOpen id p → s.views[p]? = some v →
    a ∈ v.received → a.context = id → a.isTeardown = false
  used : ∀ {p : ProcessId} {v : EngineView} {a : Request}, s.views[p]? = some v →
    a ∈ v.received → ∃ i < n, a.context = keyAt first i

namespace Tidy

variable {first : ContextId} {n : Nat} {s s' : Scene} {isOpen isOpen' : ContextId → ProcessId → Prop}

theorem congr (h : Tidy first n s isOpen) (hopen : ∀ id p, isOpen' id p ↔ isOpen id p) :
    Tidy first n s isOpen' where
  keys hv ha id := (h.keys hv ha id).trans (hopen id _).symm
  order := h.order
  home := h.home
  heard ho := h.heard ((hopen _ _).1 ho)
  untorn ho := h.untorn ((hopen _ _).1 ho)
  used := h.used

theorem mono (h : Tidy first n s isOpen) {m : Nat} (hm : n ≤ m) (hs : s'.views = s.views) :
    Tidy first m s' isOpen where
  keys hv := h.keys (hs ▸ hv)
  order hv := h.order (hs ▸ hv)
  home hv hu := h.home (hs ▸ hv) (hs ▸ hu)
  heard ho := hs ▸ h.heard ho
  untorn ho hv := h.untorn ho (hs ▸ hv)
  used hv ha := by
    obtain ⟨i, hi, hkey⟩ := h.used (hs ▸ hv) ha
    exact ⟨i, Nat.lt_of_lt_of_le hi hm, hkey⟩

theorem unique (h : Tidy first n s isOpen) {id : ContextId} {p q : ProcessId} (hp : isOpen id p)
    (hq : isOpen id q) : p = q := by
  obtain ⟨v, hv, a, ha, haid⟩ := h.heard hp
  obtain ⟨u, hu, b, hb, hbid⟩ := h.heard hq
  exact h.home hv hu ha hb (haid.trans hbid.symm)

/-- One more engine. -/
theorem launch (h : Tidy first n s isOpen) : Tidy first n s.launch.2 isOpen := by
  have hget : ∀ {p : ProcessId} {v : EngineView}, s.launch.2.views[p]? = some v → s.views[p]? = some v ∨
      (v = .fresh ∧ s.views[p]? = none) := by
    intro p v hv
    have hv' : (s.views ++ [EngineView.fresh])[p]? = some v := hv
    by_cases hlt : p < s.views.length
    · rw [List.getElem?_append_left hlt] at hv'
      exact Or.inl hv'
    · rw [List.getElem?_append_right (Nat.le_of_not_lt hlt)] at hv'
      exact Or.inr ⟨List.mem_singleton.1 (List.mem_of_getElem? hv'),
        List.getElem?_eq_none_iff.2 (Nat.le_of_not_lt hlt)⟩
  have hold : ∀ {p : ProcessId} {v : EngineView}, s.views[p]? = some v → s.launch.2.views[p]? = some v := by
    intro p v hv
    obtain ⟨hlt, -⟩ := List.getElem?_eq_some_iff.1 hv
    show (s.views ++ [EngineView.fresh])[p]? = some v
    rw [List.getElem?_append_left hlt, hv]
  have hreceived : ∀ {p : ProcessId} {v : EngineView} {a : Request}, s.launch.2.views[p]? = some v →
      a ∈ v.received → s.views[p]? = some v := by
    intro p v a hv ha
    rcases hget hv with hv | ⟨rfl, -⟩
    · exact hv
    · exact absurd ha List.not_mem_nil
  refine ⟨?_, ?_, ?_, ?_, ?_, ?_⟩
  · intro p v hv ha id
    rcases hget hv with hv | ⟨rfl, hnone⟩
    · exact h.keys hv ha id
    · constructor
      · intro hm
        exact absurd hm List.not_mem_nil
      · intro ho
        obtain ⟨v, hv, -⟩ := h.heard ho
        rw [hnone] at hv
        cases hv
  · intro p v hv
    rcases hget hv with hv | ⟨rfl, -⟩
    · exact h.order hv
    · exact .nil
  · intro p q v u a b hv hu ha hb
    exact h.home (hreceived hv ha) (hreceived hu hb) ha hb
  · intro id p ho
    obtain ⟨v, hv, ha⟩ := h.heard ho
    exact ⟨v, hold hv, ha⟩
  · intro id p v a ho hv ha
    exact h.untorn ho (hreceived hv ha) ha
  · intro p v a hv ha
    exact h.used (hreceived hv ha) ha

/-- An engine is ended. -/
theorem ended (h : Tidy first n s isOpen) (p : ProcessId) :
    Tidy first n (s.change p EngineView.ended) isOpen := by
  have hget : ∀ {q : ProcessId} {u : EngineView}, (s.change p EngineView.ended).views[q]? = some u →
      ∃ v, s.views[q]? = some v ∧ v.received = u.received ∧ (u.isAlive → u = v) := by
    intro q u hu
    rcases Scene.get_change hu with ⟨rfl, v, hv, rfl⟩ | ⟨-, hv⟩
    · exact ⟨v, hv, rfl, fun ha => absurd ha Bool.false_ne_true⟩
    · exact ⟨u, hv, rfl, fun _ => rfl⟩
  refine ⟨?_, ?_, ?_, ?_, ?_, ?_⟩
  · intro q u hu ha id
    obtain ⟨v, hv, -, heq⟩ := hget hu
    obtain rfl := heq ha
    exact h.keys hv ha id
  · intro q u hu
    obtain ⟨v, hv, hr, -⟩ := hget hu
    exact hr ▸ h.order hv
  · intro q q' u u' a b hu hu' ha hb
    obtain ⟨v, hv, hr, -⟩ := hget hu
    obtain ⟨v', hv', hr', -⟩ := hget hu'
    exact h.home hv hv' (hr ▸ ha) (hr' ▸ hb)
  · intro id q ho
    obtain ⟨v, hv, ha⟩ := h.heard ho
    by_cases hq : q = p
    · subst hq
      exact ⟨v.ended, Scene.get_change_self hv, ha⟩
    · exact ⟨v, (Scene.get_change_of_ne hq).trans hv, ha⟩
  · intro id q u a ho hu ha
    obtain ⟨v, hv, hr, -⟩ := hget hu
    exact h.untorn ho hv (hr ▸ ha)
  · intro q u a hu ha
    obtain ⟨v, hv, hr, -⟩ := hget hu
    exact h.used hv (hr ▸ ha)

/-- **One engine receives one frame more.** -/
theorem receive (h : Tidy first n s isOpen) {p : ProcessId} {v : EngineView} (hv : s.views[p]? = some v)
    {f : EngineView → EngineView} {r : Request} (hr : (f v).received = v.received ++ [r])
    (hused : ∃ i < n, r.context = keyAt first i)
    (hbefore : ∀ {q : ProcessId} {u : EngineView} {a : Request}, s.views[q]? = some u → a ∈ u.received →
      a.context = r.context → q = p ∧ a.isTeardown = false)
    (hkeys : (f v).isAlive → ∀ id, id ∈ (f v).table.keys ↔ isOpen' id p)
    (hothers : ∀ {q}, q ≠ p → ∀ id, isOpen' id q ↔ isOpen id q)
    (hopen : ∀ {id}, isOpen' id p → isOpen id p ∨ id = r.context)
    (hclosed : isOpen' r.context p → r.isTeardown = false) :
    Tidy first n (s.change p f) isOpen' := by
  have hget : ∀ {q : ProcessId} {u : EngineView}, (s.change p f).views[q]? = some u →
      (q = p ∧ u = f v) ∨ (q ≠ p ∧ s.views[q]? = some u) := by
    intro q u hu
    rcases Scene.get_change hu with ⟨hq, v', hv', rfl⟩ | hother
    · rw [hv] at hv'
      cases hv'
      exact Or.inl ⟨hq, rfl⟩
    · exact Or.inr hother
  -- A frame after the change is an old frame of the same engine, or the new one at `p`.
  have hframe : ∀ {q : ProcessId} {u : EngineView} {a : Request}, (s.change p f).views[q]? = some u →
      a ∈ u.received → (∃ v', s.views[q]? = some v' ∧ a ∈ v'.received) ∨ (q = p ∧ a = r) := by
    intro q u a hu ha
    rcases hget hu with ⟨rfl, rfl⟩ | ⟨-, hu⟩
    · rw [hr, List.mem_append, List.mem_singleton] at ha
      rcases ha with ha | rfl
      · exact Or.inl ⟨v, hv, ha⟩
      · exact Or.inr ⟨rfl, rfl⟩
    · exact Or.inl ⟨u, hu, ha⟩
  refine ⟨?_, ?_, ?_, ?_, ?_, ?_⟩
  · intro q u hu ha id
    rcases hget hu with ⟨rfl, rfl⟩ | ⟨hq, hu⟩
    · exact hkeys ha id
    · exact (h.keys hu ha id).trans (hothers hq id).symm
  · intro q u hu
    rcases hget hu with ⟨rfl, rfl⟩ | ⟨-, hu⟩
    · rw [hr, List.pairwise_append]
      refine ⟨h.order hv, List.pairwise_singleton _ r, ?_⟩
      intro a ha b hb hteardown heq
      rw [List.mem_singleton.1 hb] at heq
      rw [(hbefore hv ha heq.symm).2] at hteardown
      cases hteardown
    · exact h.order hu
  · intro q q' u u' a b hu hu' ha hb hab
    rcases hframe hu ha with ⟨v₁, hv₁, ha⟩ | ⟨rfl, rfl⟩ <;>
      rcases hframe hu' hb with ⟨v₂, hv₂, hb⟩ | ⟨rfl, rfl⟩
    · exact h.home hv₁ hv₂ ha hb hab
    · exact (hbefore hv₁ ha hab).1
    · exact (hbefore hv₂ hb hab.symm).1.symm
    · rfl
  · intro id q ho
    by_cases hq : q = p
    · subst hq
      refine ⟨f v, Scene.get_change_self hv, ?_⟩
      rw [hr]
      rcases hopen ho with ho | rfl
      · obtain ⟨v', hv', a, ha, haid⟩ := h.heard ho
        rw [hv] at hv'
        cases hv'
        exact ⟨a, List.mem_append_left _ ha, haid⟩
      · exact ⟨r, List.mem_append_right _ List.mem_cons_self, rfl⟩
    · obtain ⟨v', hv', ha⟩ := h.heard ((hothers hq id).1 ho)
      exact ⟨v', (Scene.get_change_of_ne hq).trans hv', ha⟩
  · intro id q u a ho hu ha haid
    rcases hframe hu ha with ⟨v', hv', ha⟩ | ⟨rfl, rfl⟩
    · by_cases hq : q = p
      · subst hq
        rcases hopen ho with ho | rfl
        · exact h.untorn ho hv' ha haid
        · exact (hbefore hv' ha haid).2
      · exact h.untorn ((hothers hq id).1 ho) hv' ha haid
    · exact hclosed (haid ▸ ho)
  · intro q u a hu ha
    rcases hframe hu ha with ⟨v', hv', ha⟩ | ⟨-, rfl⟩
    · exact h.used hv' ha
    · exact hused

/-- Nothing else than the frames of its own engine is about an open context. -/
theorem before_of_open (h : Tidy first n s isOpen) {id : ContextId} {p : ProcessId} (ho : isOpen id p)
    {q : ProcessId} {u : EngineView} {a : Request} (hu : s.views[q]? = some u) (ha : a ∈ u.received)
    (haid : a.context = id) : q = p ∧ a.isTeardown = false := by
  obtain ⟨v, hv, b, hb, hbid⟩ := h.heard ho
  have hq : q = p := h.home hu hv ha hb (haid.trans hbid.symm)
  subst hq
  exact ⟨rfl, h.untorn ho hu ha haid⟩

/-- A source text is evaluated for a context that is open, or that nothing was heard of. -/
theorem evaluate [Build] (h : Tidy first n s isOpen) {p : ProcessId} {v : EngineView} (hv : s.views[p]? = some v)
    {id : ContextId} (hused : ∃ i < n, id = keyAt first i)
    (hbefore : ∀ {q : ProcessId} {u : EngineView} {a : Request}, s.views[q]? = some u → a ∈ u.received →
      a.context = id → q = p ∧ a.isTeardown = false)
    (halive : v.isAlive ∨ isOpen id p) (runtime marker source : String) :
    Tidy first n (s.change p fun v => (v.evaluate runtime marker id source).2)
      (fun i q => isOpen i q ∨ (i = id ∧ q = p)) := by
  by_cases ha : v.isAlive
  · have heval : (v.evaluate runtime marker id source).2 = v.afterEvaluate id source := by
      rw [EngineView.evaluate, if_pos ha]
    refine h.receive hv (r := .escaped id source) ?_ hused hbefore ?_ ?_ ?_ ?_
    · rw [heval]
      rfl
    · rw [heval]
      intro _ i
      rw [EngineView.afterEvaluate, Engine.Table.mem_keys_keep, h.keys hv ha]
      exact or_congr_right ⟨fun hi => ⟨hi, rfl⟩, And.left⟩
    · intro q hq i
      constructor
      · rintro (ho | ⟨-, hqp⟩)
        · exact ho
        · exact absurd hqp hq
      · exact Or.inl
    · intro i ho
      exact ho.imp_right And.left
    · intro _
      rfl
  · have hopen := halive.resolve_left ha
    have heval : (v.evaluate runtime marker id source).2 = v := by
      rw [EngineView.evaluate, if_neg ha]
    rw [Scene.change_eq_self hv heval]
    apply h.congr
    intro i q
    constructor
    · rintro (ho | ⟨rfl, rfl⟩)
      · exact ho
      · exact hopen
    · exact Or.inl

/-- A context of a dead engine is no longer open. -/
theorem close_of_dead (h : Tidy first n s isOpen) {p : ProcessId} {id : ContextId} (ho : isOpen id p)
    {v : EngineView} (hv : s.views[p]? = some v) (hdead : v.isAlive = false) :
    Tidy first n s (fun i q => isOpen i q ∧ i ≠ id) where
  keys {q u} hu ha i := by
    refine (h.keys hu ha i).trans ⟨fun hi => ⟨hi, ?_⟩, And.left⟩
    rintro rfl
    rw [h.unique hi ho, hv] at hu
    cases hu
    rw [hdead] at ha
    cases ha
  order := h.order
  home := h.home
  heard hi := h.heard hi.1
  untorn hi := h.untorn hi.1
  used := h.used

/-- An open context is released. -/
theorem release (h : Tidy first n s isOpen) {p : ProcessId} {id : ContextId} (ho : isOpen id p)
    (handle : Handle) :
    Tidy first n (s.change p (EngineView.release handle id)) (fun i q => isOpen i q ∧ i ≠ id) := by
  obtain ⟨v, hv, a, ha, haid⟩ := h.heard ho
  cases handle with
  | owned _ => exact (h.ended p).close_of_dead ho (Scene.get_change_self hv) rfl
  | shared other =>
    by_cases halive : v.isAlive
    · have hrelease : v.release (.shared other) id = v.teardown id := if_pos halive
      refine h.receive hv (r := .teardown id) ?_ ?_ (fun hu hb => h.before_of_open ho hu hb) ?_ ?_ ?_ ?_
      · rw [hrelease]
        rfl
      · obtain ⟨i, hi, hkey⟩ := h.used hv ha
        exact ⟨i, hi, haid.symm.trans hkey⟩
      · rw [hrelease]
        intro _ i
        rw [EngineView.teardown, Engine.Table.mem_keys_forget, h.keys hv halive]
      · intro q hq i
        constructor
        · exact And.left
        · intro hi
          refine ⟨hi, ?_⟩
          rintro rfl
          exact hq (h.unique hi ho)
      · intro i hi
        exact Or.inl hi.1
      · intro hi
        exact absurd rfl hi.2
    · have hrelease : v.release (.shared other) id = v := if_neg halive
      rw [Scene.change_eq_self hv hrelease]
      exact h.close_of_dead ho hv (Bool.not_eq_true _ ▸ halive)

end Tidy

/-! ### Attached contexts -/

/-- A context is open and attached to an engine. -/
def IsAttached (cs : List (Context PipeSession)) (id : ContextId) (p : ProcessId) : Prop :=
  ∃ c ∈ cs, ∃ session, c.session = some session ∧ c.id = id ∧ session.handle.process = p

theorem isAttached_append {cs cs' : List (Context PipeSession)} {id : ContextId} {p : ProcessId} :
    IsAttached (cs ++ cs') id p ↔ IsAttached cs id p ∨ IsAttached cs' id p := by
  constructor
  · rintro ⟨c, hc, hrest⟩
    rcases List.mem_append.1 hc with hc | hc
    · exact Or.inl ⟨c, hc, hrest⟩
    · exact Or.inr ⟨c, hc, hrest⟩
  · rintro (⟨c, hc, hrest⟩ | ⟨c, hc, hrest⟩)
    · exact ⟨c, List.mem_append_left _ hc, hrest⟩
    · exact ⟨c, List.mem_append_right _ hc, hrest⟩

theorem isAttached_singleton {c : Context PipeSession} {id : ContextId} {p : ProcessId} :
    IsAttached [c] id p ↔ ∃ session, c.session = some session ∧ c.id = id ∧ session.handle.process = p := by
  constructor
  · rintro ⟨c', hc', hrest⟩
    rw [List.mem_singleton.1 hc'] at hrest
    exact hrest
  · intro hrest
    exact ⟨c, List.mem_cons_self, hrest⟩

theorem not_isAttached_of_closed {c : Context PipeSession} (hc : c.session = none) (id : ContextId)
    (p : ProcessId) : ¬IsAttached [c] id p := by
  rw [isAttached_singleton]
  rintro ⟨session, hsession, -⟩
  rw [hc] at hsession
  cases hsession

/-- Closing a context detaches it and no other. -/
theorem isAttached_closed {pre post : List (Context PipeSession)} {c : Context PipeSession}
    (hdistinct : ((pre ++ c :: post).map Context.id).Nodup) (id : ContextId) (p : ProcessId) :
    IsAttached (pre ++ c.closed :: post) id p ↔ IsAttached (pre ++ c :: post) id p ∧ id ≠ c.id := by
  rw [List.map_append, List.map_cons, List.nodup_append] at hdistinct
  obtain ⟨-, hpost, hpre⟩ := hdistinct
  constructor
  · rintro ⟨c', hc', session, hsession, rfl, hp⟩
    rcases List.mem_append.1 hc' with hm | hm
    · exact ⟨⟨c', List.mem_append_left _ hm, session, hsession, rfl, hp⟩,
        hpre c'.id (List.mem_map_of_mem hm) c.id List.mem_cons_self⟩
    · rcases List.mem_cons.1 hm with rfl | hm
      · cases hsession
      · refine ⟨⟨c', List.mem_append_right _ (List.mem_cons_of_mem _ hm), session, hsession, rfl, hp⟩, ?_⟩
        intro heq
        exact (List.nodup_cons.1 hpost).1 (heq ▸ List.mem_map_of_mem hm)
  · rintro ⟨⟨c', hc', session, hsession, rfl, hp⟩, hne⟩
    rcases List.mem_append.1 hc' with hm | hm
    · exact ⟨c', List.mem_append_left _ hm, session, hsession, rfl, hp⟩
    · rcases List.mem_cons.1 hm with rfl | hm
      · exact absurd rfl hne
      · exact ⟨c', List.mem_append_right _ (List.mem_cons_of_mem _ hm), session, hsession, rfl, hp⟩

theorem tidy_nil (first : ContextId) (s : Scene) (hs : s.views = []) : Tidy first 0 s (IsAttached []) := by
  have hnone : ∀ {p : ProcessId} {v : EngineView}, s.views[p]? ≠ some v := by
    intro p v hv
    rw [hs] at hv
    cases hv
  have hclosed : ∀ {id : ContextId} {p : ProcessId}, ¬IsAttached [] id p := by
    rintro id p ⟨c, hc, -⟩
    exact absurd hc List.not_mem_nil
  exact ⟨fun hv => absurd hv hnone, fun hv => absurd hv hnone, fun hv => absurd hv hnone,
    fun ho => absurd ho hclosed, fun ho => absurd ho hclosed, fun hv => absurd hv hnone⟩

/-! ### Runs -/

/-- What a run keeps: contexts are in their places, have keys of their own, and engines are tidy as long
as there are enough keys. -/
structure Orderly (d : Descriptor) (first : ContextId) (n : Nat) (s : Scene)
    (cs : List (Context PipeSession)) : Prop where
  seated : Seated d s cs
  keyed : Keyed first n s cs
  tidy : n ≤ UInt64.size → Tidy first n s (IsAttached cs)

namespace Orderly

variable [Build] {d : Descriptor} {first : ContextId} {n : Nat} {s : Scene}

theorem enter {slot : Option ProcessId} {cs : List (Context PipeSession)} (preamble : String)
    (h : Orderly d first n s cs) (hn : n + 1 ≤ UInt64.size) :
    Tidy first (n + 1)
      ((Scene.newcomer d slot s).evaluateString preamble (s.takeId.2.attach d.isShared slot).2.2).2
      (IsAttached (cs ++ [Scene.newcomer d slot s])) := by
  have htidy := h.tidy (Nat.le_of_succ_le hn)
  have hattach : ∃ v, (s.takeId.2.attach d.isShared slot).2.2.views[
      (s.takeId.2.attach d.isShared slot).1.process]? = some v ∧ v.isAlive ∧
      Tidy first n (s.takeId.2.attach d.isShared slot).2.2 (IsAttached cs) := by
    have htaken : Tidy first n s.takeId.2 (IsAttached cs) := htidy.mono (Nat.le_refl n) rfl
    rcases Scene.attach_spec d.isShared slot s.takeId.2 with ⟨id, heq, -, -, halive⟩ | ⟨heq, hprocess, -⟩
    · rw [heq]
      obtain ⟨v, hv, ha⟩ := (Option.any_eq_true _ _).1 halive
      exact ⟨v, hv, ha, htaken⟩
    · rw [heq, hprocess]
      exact ⟨.fresh, List.getElem?_concat_length, rfl, htaken.launch⟩
  obtain ⟨v, hv, halive, hlaunched⟩ := hattach
  have hid : (Scene.newcomer d slot s).id = keyAt first n := h.keyed.next
  rw [Scene.evaluateString_snd (Scene.session_newcomer d slot s)]
  refine ((hlaunched.mono (Nat.le_succ n) rfl).evaluate hv ⟨n, Nat.lt_succ_self n, hid⟩ ?_ (Or.inl halive)
    _ _ preamble).congr fun id p => ?_
  · intro q u a hu ha haid
    obtain ⟨i, hi, hkey⟩ := hlaunched.used hu ha
    have heq : keyAt first i = keyAt first n := hkey.symm.trans (haid.trans hid)
    exact absurd (keyAt_inj (Nat.lt_trans hi hn) hn heq) (Nat.ne_of_lt hi)
  · rw [isAttached_append, isAttached_singleton]
    refine or_congr_right ⟨?_, ?_⟩
    · rintro ⟨session, hsession, rfl, rfl⟩
      cases hsession
      exact ⟨rfl, rfl⟩
    · rintro ⟨rfl, rfl⟩
      exact ⟨_, rfl, rfl, rfl⟩

theorem act {pre post : List (Context PipeSession)} {c : Context PipeSession} (op : ContextOp)
    (h : Orderly d first n s (pre ++ c :: post)) (hn : n ≤ UInt64.size) :
    Tidy first n (op.run (c, s)).2.2 (IsAttached (pre ++ (op.run (c, s)).2.1 :: post)) := by
  have htidy := h.tidy hn
  cases hc : c.session with
  | none =>
    rw [ContextOp.run_of_closed hc]
    exact htidy
  | some session =>
    obtain ⟨hid, -, -⟩ := h.seated c (List.mem_append_right _ List.mem_cons_self) session hc
    have hopen : IsAttached (pre ++ c :: post) c.id session.handle.process :=
      ⟨c, List.mem_append_right _ List.mem_cons_self, session, hc, rfl, rfl⟩
    rw [Scene.run_snd_of_open hc]
    by_cases hop : op.isClose
    · have hoperate : EngineView.operate s.runtime session op =
          EngineView.release session.handle c.id := by
        funext v
        rw [EngineView.operate, if_pos hop, hid]
      have hleft : op.left c = c.closed := if_pos hop
      rw [hoperate, hleft]
      exact (htidy.release hopen session.handle).congr (isAttached_closed (h.keyed.distinct hn))
    · have hleft : op.left c = c := if_neg hop
      rw [hleft]
      cases ht : op.text? with
      | none =>
        have hoperate : EngineView.operate s.runtime session op = fun v => v := by
          funext v
          rw [EngineView.operate, if_neg hop, ht]
        rw [hoperate, Scene.change_id]
        exact htidy
      | some text =>
        have hoperate : EngineView.operate s.runtime session op = fun v =>
            (v.evaluate s.runtime session.marker c.id text).2 := by
          funext v
          rw [EngineView.operate, if_neg hop, ht, hid]
        obtain ⟨v, hv, a, ha, haid⟩ := htidy.heard hopen
        obtain ⟨i, hi, hkey⟩ := htidy.used hv ha
        rw [hoperate]
        refine (htidy.evaluate hv ⟨i, hi, haid.symm.trans hkey⟩
          (fun hu hb => htidy.before_of_open hopen hu hb) (Or.inr hopen) _ _ text).congr fun id p => ?_
        constructor
        · exact Or.inl
        · rintro (ho | ⟨rfl, rfl⟩)
          · exact ho
          · exact hopen

theorem kept (d : Descriptor) (first : ContextId) :
    Stage.Kept d fun n _ s cs => Orderly d first n s cs where
  enter {n slot s cs} preamble h :=
    ⟨(Seated.kept d).enter (n := n) preamble h.seated, (Keyed.kept d first).enter preamble h.keyed,
      h.enter preamble⟩
  act {n slot s pre post c} op h :=
    ⟨(Seated.kept d).act (n := n) (p := slot) op h.seated,
      (Keyed.kept d first).act (p := slot) op h.keyed, h.act op⟩
  leave {n slot s cs c} hc h := by
    refine ⟨(Seated.kept d).leave (n := n) (p := slot) hc h.seated,
      (Keyed.kept d first).leave (p := slot) hc h.keyed, ?_⟩
    intro hn
    apply (h.tidy hn).congr
    intro id p
    rw [isAttached_append, or_iff_left (not_isAttached_of_closed hc id p)]
  sever {n slot s cs} h := by
    refine ⟨(Seated.kept d).sever (n := n) h.seated, (Keyed.kept d first).sever h.keyed, ?_⟩
    intro hn
    cases slot with
    | none => exact h.tidy hn
    | some id => exact (h.tidy hn).ended id
  clear h := h

end Orderly

/-! ### Frames are never taken back -/

/-- Every engine is still there, and has received at least what it had. -/
def Extends (s s' : Scene) : Prop :=
  ∀ (p : ProcessId) (v : EngineView), s.views[p]? = some v →
    ∃ v' : EngineView, s'.views[p]? = some v' ∧ v.received ⊆ v'.received

namespace Extends

variable {s₀ s : Scene}

theorem change (h : Extends s₀ s) {f : EngineView → EngineView} (hf : ∀ v, v.received ⊆ (f v).received)
    (p : ProcessId) : Extends s₀ (s.change p f) := by
  intro q v hv
  obtain ⟨v', hv', hr⟩ := h q v hv
  by_cases hq : q = p
  · subst hq
    exact ⟨f v', Scene.get_change_self hv', fun a ha => hf v' (hr ha)⟩
  · exact ⟨v', (Scene.get_change_of_ne hq).trans hv', hr⟩

theorem launch (h : Extends s₀ s) : Extends s₀ s.launch.2 := by
  intro q v hv
  obtain ⟨v', hv', hr⟩ := h q v hv
  obtain ⟨hlt, -⟩ := List.getElem?_eq_some_iff.1 hv'
  exact ⟨v', (List.getElem?_append_left hlt).trans hv', hr⟩

theorem received_evaluate [Build] (runtime marker source : String) (id : ContextId) (v : EngineView) :
    v.received ⊆ (v.evaluate runtime marker id source).2.received := by
  rw [EngineView.evaluate]
  split
  · exact List.subset_append_left _ _
  · exact List.Subset.refl _

theorem received_release (handle : Handle) (id : ContextId) (v : EngineView) :
    v.received ⊆ (v.release handle id).received := by
  cases handle with
  | owned _ => exact List.Subset.refl _
  | shared other =>
    show v.received ⊆ (if v.isAlive then v.teardown id else v).received
    split
    · exact List.subset_append_left _ _
    · exact List.Subset.refl _

theorem received_operate [Build] (runtime : String) (session : PipeSession) (op : ContextOp) (v : EngineView) :
    v.received ⊆ (v.operate runtime session op).received := by
  rw [EngineView.operate]
  split
  · exact received_release _ _ v
  · split
    · exact List.Subset.refl _
    · exact received_evaluate _ _ _ _ v

theorem kept [Build] (d : Descriptor) (s₀ : Scene) : Stage.Kept d fun _ _ s _ => Extends s₀ s where
  enter {_ slot s _} preamble h := by
    rw [Scene.evaluateString_snd (Scene.session_newcomer d slot s)]
    refine change ?_ (received_evaluate _ _ _ _) _
    have htaken : Extends s₀ s.takeId.2 := h
    rcases Scene.attach_spec d.isShared slot s.takeId.2 with ⟨id, heq, -⟩ | ⟨heq, -⟩
    · rw [heq]
      exact htaken
    · rw [heq]
      exact htaken.launch
  act {_ _ s pre post c} op h := by
    cases hc : c.session with
    | none =>
      rw [ContextOp.run_of_closed hc]
      exact h
    | some session =>
      rw [Scene.run_snd_of_open hc]
      exact h.change (received_operate _ _ _) _
  leave _ h := h
  sever {_ slot _ _} h := by
    cases slot with
    | none => exact h
    | some id => exact change h (f := EngineView.ended) (fun v => List.Subset.refl _) id
  clear h := h

end Extends

/-! ### In reached states -/

namespace Stage

variable {ω : Type} {d : Descriptor}

/-- What engines keep and have received in a reached state. -/
structure IsTidy [Build] (d : Descriptor) (host : ω) (first : ContextId) (ops : List Op) : Prop where
  /-- A living engine keeps scopes for the open contexts that were attached to it. -/
  keys : ∀ p v, (reached d host first ops).world.views[p]? = some v → v.isAlive →
    ∀ id, id ∈ v.table.keys ↔ IsAttached (reached d host first ops).contexts id p
  /-- It receives nothing for a context after it was told to forget it, not even that again. -/
  order : ∀ (p : ProcessId) v, (reached d host first ops).world.views[p]? = some v →
    v.received.Pairwise fun a b => a.isTeardown → b.context ≠ a.context
  /-- No two engines receive frames for one context. -/
  home : ∀ (p q : ProcessId) v u, (reached d host first ops).world.views[p]? = some v →
    (reached d host first ops).world.views[q]? = some u →
    ∀ a ∈ v.received, ∀ b ∈ u.received, a.context = b.context → p = q
  /-- What is received for a context that was ever attached to an engine is received by that engine. -/
  attached : ∀ before behind, ops = before ++ behind → ∀ id p,
    IsAttached (reached d host first before).contexts id p →
    ∀ q u, (reached d host first ops).world.views[q]? = some u →
      ∀ a ∈ u.received, a.context = id → q = p

theorem taken_append (ops ops' : List Op) : taken (ops ++ ops') = taken ops + taken ops' :=
  List.countP_append

theorem orderly_seen [Build] (d : Descriptor) (first : ContextId) (ops : List Op) :
    Orderly d first (taken ops) (seen d first ops).world (seen d first ops).contexts := by
  apply (Orderly.kept d first).seen
  refine ⟨?_, ⟨(UInt64.add_zero first).symm, ?_, ?_⟩, ?_⟩
  · intro c hc
    exact absurd hc List.not_mem_nil
  · intro c hc
    exact absurd hc List.not_mem_nil
  · intro _
    exact List.nodup_nil
  · intro _
    exact tidy_nil first _ rfl

/-- **Engines are tidy in every reached state**, as long as there are enough keys. -/
theorem tidy_reached [Build] (hd : d.framing.IsSafe) (host : ω) (first : ContextId) {ops : List Op}
    (hops : taken ops ≤ UInt64.size) : IsTidy d host first ops := by
  have hshows := seen_reached hd host first ops
  have htidy := (orderly_seen d first ops).tidy hops
  have hviews := hshows.hosts.world.views
  refine ⟨?_, ?_, ?_, ?_⟩
  · intro p v hv ha id
    rw [hviews] at hv
    rw [hshows.contexts]
    exact htidy.keys hv ha id
  · intro p v hv
    rw [hviews] at hv
    exact htidy.order hv
  · intro p q v u hv hu a ha b hb hab
    rw [hviews] at hv hu
    exact htidy.home hv hu ha hb hab
  · rintro before behind rfl id p hopen q u hu a ha haid
    rw [hviews] at hu
    rw [(seen_reached hd host first before).contexts] at hopen
    rw [taken_append] at hops
    obtain ⟨v, hv, b, hb, hbid⟩ :=
      ((orderly_seen d first before).tidy (Nat.le_trans (Nat.le_add_right _ _) hops)).heard hopen
    have hextends : Extends (seen d first before).world (seen d first (before ++ behind)).world := by
      rw [seen_append]
      exact (Extends.kept d _).run (n := 0) (fun p v hv => ⟨v, hv, List.Subset.refl _⟩) behind
    obtain ⟨v', hv', hr⟩ := hextends p v hv
    exact htidy.home hu hv' ha (hr hb) (haid.trans hbid.symm)

attribute [local instance] Build.plain in
/-- A context outlives its engine, and another is closed twice. -/
theorem tidy_after_reset :
    IsTidy sharedToy () 1
      [.compile "x = 1", .withContext "" (.act (.eval "x") fun _ => .done (.ok .null)), .reset, .compile "",
        .act 1 .close, .act 1 .close, .act 0 .close] :=
  tidy_reached isSafe_sharedToy () 1 (by decide)

end Stage

end Bridge

end EnginePipe
