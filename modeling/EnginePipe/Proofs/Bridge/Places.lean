import EnginePipe.Proofs.Bridge.Runs

/-!
# Keys and places of contexts

In a run every open context has its session under its own key, with the marker of the runtime's kind of
engine, at an engine that was started.  Keys are handed out one after another, so contexts have different
keys as long as there are enough.

* `Seated.kept`, `seated_seen`: where the sessions of open contexts are.
* `Keyed.kept`, `keyed_seen`: **contexts have different keys**.
-/

namespace EnginePipe

open Channel (EngineView)
open Launch (Handle ProcessId Station World)

/-! ### What steps leave alone -/

namespace Scene

variable {s : Scene}

theorem length_change (s : Scene) (id : ProcessId) (f : EngineView → EngineView) :
    (s.change id f).views.length = s.views.length :=
  List.length_modify f _ _

theorem lt_of_isAlive {id : ProcessId} (h : s.isAlive id) : id < s.views.length := by
  by_contra hlt
  rw [isAlive, List.getElem?_eq_none_iff.2 (Nat.le_of_not_lt hlt)] at h
  cases h

theorem views_sever (slot : Option ProcessId) :
    (s.sever slot).views.length = s.views.length ∧ (s.sever slot).nextContext = s.nextContext := by
  cases slot with
  | none => exact ⟨rfl, rfl⟩
  | some id => exact ⟨length_change s id _, rfl⟩

/-- What is seen of an engine that was found for a new context. -/
theorem attach_spec (isShared : Bool) (slot : Option ProcessId) (s : Scene) :
    (∃ id, s.attach isShared slot = (.shared id, slot, s) ∧ isShared ∧ slot = some id ∧ s.isAlive id) ∨
      (s.attach isShared slot).2.2 = s.launch.2 ∧
        (s.attach isShared slot).1.process = s.views.length ∧
        ((isShared ∧ (s.attach isShared slot).1 = .shared s.views.length ∧
            (s.attach isShared slot).2.1 = some s.views.length) ∨
          (isShared = false ∧ (s.attach isShared slot).1 = .owned s.views.length ∧
            (s.attach isShared slot).2.1 = slot)) := by
  rw [attach]
  cases isShared with
  | false => exact Or.inr ⟨rfl, rfl, Or.inr ⟨rfl, rfl, rfl⟩⟩
  | true =>
    cases hc : slot.filter s.isAlive with
    | none => exact Or.inr ⟨rfl, rfl, Or.inl ⟨rfl, rfl, rfl⟩⟩
    | some id =>
      obtain ⟨hslot, halive⟩ := Option.filter_eq_some_iff.1 hc
      exact Or.inl ⟨id, rfl, rfl, hslot, halive⟩

theorem attach_lt (isShared : Bool) (slot : Option ProcessId) (s : Scene) :
    (s.attach isShared slot).1.process < (s.attach isShared slot).2.2.views.length ∧
      s.views.length ≤ (s.attach isShared slot).2.2.views.length ∧
      (s.attach isShared slot).2.2.nextContext = s.nextContext := by
  rcases attach_spec isShared slot s with ⟨id, h, -, -, halive⟩ | ⟨h, hprocess, -⟩
  · rw [h]
    exact ⟨lt_of_isAlive halive, Nat.le_refl _, rfl⟩
  · have hlen : s.launch.2.views.length = s.views.length + 1 := List.length_append
    rw [h, hprocess, hlen]
    exact ⟨Nat.lt_succ_self _, Nat.le_succ _, rfl⟩

end Scene

/-- What an operation on a context leaves alone. -/
theorem ContextOp.run_frame [Build] (op : ContextOp) (c : Context PipeSession) (s : Scene) :
    (op.run (c, s)).2.1.id = c.id ∧
      ((op.run (c, s)).2.1.session = c.session ∨ (op.run (c, s)).2.1.session = none) ∧
      (op.run (c, s)).2.2.views.length = s.views.length ∧
      (op.run (c, s)).2.2.nextContext = s.nextContext := by
  cases hc : c.session with
  | none =>
    rw [ContextOp.run_of_closed hc]
    exact ⟨rfl, Or.inl hc, rfl, rfl⟩
  | some session =>
    rw [Scene.run_snd_of_open hc, ContextOp.left]
    refine ⟨?_, ?_, Scene.length_change s _ _, rfl⟩
    · split <;> rfl
    · split
      · exact Or.inr rfl
      · exact Or.inl hc

theorem Context.evaluateString_frame [Build] (c : Context PipeSession) (source : String) (s : Scene) :
    (c.evaluateString source s).2.views.length = s.views.length ∧
      (c.evaluateString source s).2.nextContext = s.nextContext :=
  ((ContextOp.evaluateString source).run_frame c s).2.2

namespace Bridge

/-! ### Places -/

/-- The sessions of open contexts stand where they were opened. -/
def Seated (d : Descriptor) (s : Scene) (cs : List (Context PipeSession)) : Prop :=
  ∀ c ∈ cs, ∀ session, c.session = some session →
    session.id = c.id ∧ session.marker = d.syntaxMarker ∧ session.handle.process < s.views.length

namespace Seated

variable {d : Descriptor} {s s' : Scene} {cs : List (Context PipeSession)}

theorem mono (h : Seated d s cs) (hs : s.views.length ≤ s'.views.length) : Seated d s' cs := by
  intro c hc session hsession
  obtain ⟨hid, hmarker, hlt⟩ := h c hc session hsession
  exact ⟨hid, hmarker, Nat.lt_of_lt_of_le hlt hs⟩

theorem kept [Build] (d : Descriptor) : Stage.Kept d fun _ _ s cs => Seated d s cs where
  enter {n slot s cs} preamble h := by
    obtain ⟨hlt, hle, -⟩ := Scene.attach_lt d.isShared slot s.takeId.2
    have hlen := (Context.evaluateString_frame (Scene.newcomer d slot s) preamble
      (s.takeId.2.attach d.isShared slot).2.2).1
    intro c hc session hsession
    rcases List.mem_append.1 hc with hc | hc
    · exact h.mono (hlen ▸ hle) c hc session hsession
    · rw [List.mem_singleton.1 hc] at hsession ⊢
      cases hsession
      exact ⟨rfl, rfl, hlen ▸ hlt⟩
  act {n slot s pre post c} op h := by
    obtain ⟨hid, hsession', hlen, -⟩ := op.run_frame c s
    have hother : ∀ c' ∈ pre ++ c :: post, ∀ session, c'.session = some session → session.id = c'.id ∧
        session.marker = d.syntaxMarker ∧ session.handle.process < (op.run (c, s)).2.2.views.length :=
      h.mono (Nat.le_of_eq hlen.symm)
    intro c' hc' session hsession
    rcases List.mem_append.1 hc' with hc' | hc'
    · exact hother c' (List.mem_append_left _ hc') session hsession
    · rcases List.mem_cons.1 hc' with rfl | hc'
      · rcases hsession' with hsession' | hsession'
        · rw [hsession'] at hsession
          rw [hid]
          exact hother c (List.mem_append_right _ List.mem_cons_self) session hsession
        · rw [hsession'] at hsession
          cases hsession
      · exact hother c' (List.mem_append_right _ (List.mem_cons_of_mem _ hc')) session hsession
  leave _ h := fun c hc => h c (List.mem_append_left _ hc)
  sever {_ slot _ _} h := h.mono (Nat.le_of_eq (Scene.views_sever slot).1.symm)
  clear h := h

end Seated

/-! ### Keys -/

/-- The `n`th key that is handed out. -/
def keyAt (first : ContextId) (n : Nat) : ContextId := first + UInt64.ofNat n

theorem keyAt_succ (first : ContextId) (n : Nat) : keyAt first n + 1 = keyAt first (n + 1) := by
  rw [keyAt, keyAt, UInt64.ofNat_add, ← UInt64.add_assoc]
  rfl

theorem keyAt_inj {first : ContextId} {i j : Nat} (hi : i < UInt64.size) (hj : j < UInt64.size)
    (h : keyAt first i = keyAt first j) : i = j := by
  have hnat := congrArg UInt64.toNat ((UInt64.add_right_inj first).1 h)
  rwa [UInt64.toNat_ofNat_of_lt' hi, UInt64.toNat_ofNat_of_lt' hj] at hnat

/-- Keys were handed out one after another to contexts. -/
structure Keyed (first : ContextId) (n : Nat) (s : Scene) (cs : List (Context PipeSession)) : Prop where
  next : s.nextContext = keyAt first n
  used : ∀ c ∈ cs, ∃ i < n, c.id = keyAt first i
  distinct : n ≤ UInt64.size → (cs.map Context.id).Nodup

namespace Keyed

variable {first : ContextId} {n : Nat} {s s' : Scene} {cs : List (Context PipeSession)}

theorem mono (h : Keyed first n s cs) (hs : s'.nextContext = s.nextContext) : Keyed first n s' cs :=
  ⟨hs.trans h.next, h.used, h.distinct⟩

theorem kept [Build] (d : Descriptor) (first : ContextId) : Stage.Kept d fun n _ s cs => Keyed first n s cs where
  enter {n slot s cs} preamble h := by
    have hnext := (Context.evaluateString_frame (Scene.newcomer d slot s) preamble
      (s.takeId.2.attach d.isShared slot).2.2).2
    have hid : (Scene.newcomer d slot s).id = keyAt first n := h.next
    refine ⟨?_, ?_, ?_⟩
    · rw [hnext, (Scene.attach_lt d.isShared slot s.takeId.2).2.2]
      show s.nextContext + 1 = _
      rw [h.next, keyAt_succ]
    · intro c hc
      rcases List.mem_append.1 hc with hc | hc
      · obtain ⟨i, hi, hkey⟩ := h.used c hc
        exact ⟨i, Nat.lt_succ_of_lt hi, hkey⟩
      · rw [List.mem_singleton.1 hc]
        exact ⟨n, Nat.lt_succ_self n, hid⟩
    · intro hn
      rw [List.map_append, List.nodup_append]
      refine ⟨h.distinct (Nat.le_of_succ_le hn), (List.nodup_cons.2 ⟨List.not_mem_nil, List.nodup_nil⟩), ?_⟩
      intro id hid' id' hid''
      obtain ⟨c, hc, rfl⟩ := List.mem_map.1 hid'
      rw [List.map_singleton, List.mem_singleton, hid] at hid''
      obtain ⟨i, hi, hkey⟩ := h.used c hc
      rw [hid'', hkey]
      intro heq
      exact absurd (keyAt_inj (Nat.lt_trans hi hn) hn heq) (Nat.ne_of_lt hi)
  act {n slot s pre post c} op h := by
    obtain ⟨hid, -, -, hnext⟩ := op.run_frame c s
    have hmap : (pre ++ (op.run (c, s)).2.1 :: post).map Context.id = (pre ++ c :: post).map Context.id := by
      rw [List.map_append, List.map_append, List.map_cons, List.map_cons, hid]
    refine ⟨hnext.trans h.next, ?_, fun hn => hmap ▸ h.distinct hn⟩
    intro c' hc'
    have hmem : c'.id ∈ (pre ++ c :: post).map Context.id := hmap ▸ List.mem_map_of_mem hc'
    obtain ⟨c'', hc'', hid'⟩ := List.mem_map.1 hmem
    rw [← hid']
    exact h.used c'' hc''
  leave {n slot s cs c} _ h := by
    refine ⟨h.next, fun c hc => h.used c (List.mem_append_left _ hc), fun hn => ?_⟩
    have hnodup := h.distinct hn
    rw [List.map_append] at hnodup
    exact (List.nodup_append.1 hnodup).1
  sever {_ slot _ _} h := h.mono (Scene.views_sever slot).2
  clear h := h

theorem ne_of_ne (h : Keyed first n s cs) (hn : n ≤ UInt64.size) {j k : Nat} {c c' : Context PipeSession}
    (hj : cs[j]? = some c) (hk : cs[k]? = some c') (hne : j ≠ k) : c.id ≠ c'.id := by
  intro hid
  have hj' : (cs.map Context.id)[j]? = some c'.id := by rw [List.getElem?_map, hj, ← hid]; rfl
  have hk' : (cs.map Context.id)[k]? = some c'.id := by rw [List.getElem?_map, hk]; rfl
  obtain ⟨hjlt, hjget⟩ := List.getElem?_eq_some_iff.1 hj'
  obtain ⟨hklt, hkget⟩ := List.getElem?_eq_some_iff.1 hk'
  exact hne ((List.getElem_inj (h.distinct hn)).1 (hjget.trans hkget.symm))

end Keyed

/-! ### In a run -/

namespace Stage

theorem seated_seen [Build] (d : Descriptor) (first : ContextId) (ops : List Op) :
    Seated d (seen d first ops).world (seen d first ops).contexts :=
  (Seated.kept d).seen (fun _ h => absurd h List.not_mem_nil) ops

theorem keyed_seen [Build] (d : Descriptor) (first : ContextId) (ops : List Op) :
    Keyed first (taken ops) (seen d first ops).world (seen d first ops).contexts :=
  (Keyed.kept d first).seen
    ⟨(UInt64.add_zero first).symm, fun _ h => absurd h List.not_mem_nil, fun _ => List.nodup_nil⟩ ops

end Stage

end Bridge

end EnginePipe
