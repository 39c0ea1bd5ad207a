import EnginePipe.Proofs.Bridge.Tidiness
import EnginePipe.Proofs.Bridge.Turns

/-!
# Clients do not notice each other

Clients take turns at one engine, in any order.  As long as no source text ends the engine it stays alive,
and each client gets what it would get from the engine's evaluation alone: its key is its own, so what others
have evaluated leaves its scope as it was, and every request is answered before the next is sent.

* `Agrees`: a client at the engine is as far as alone, and its scope is the same.
* `Turned`: what one turn keeps; `turned`: **every turn does**.
* `Isolated.turn`, `Isolated.run`: clients stay isolated.
* `Room.results_alone`: **in every order of turns, a client gets what the engine's evaluation alone would
  give it**.
* `Room.results_isolated`: so it gets what it gets where nobody else takes a turn.  What ends the engine is the
  exit word in some text or, where sums are checked, a sum.
-/

namespace EnginePipe

open Channel (EngineView hostResult)
open Json (Value)
open Launch (Handle ProcessId Station World toyLauncher)

/-- The scope that an engine keeps for a context. -/
def Scene.scope (s : Scene) (p : ProcessId) (id : ContextId) : Engine.Scope :=
  match s.views[p]? with
  | none => []
  | some v => v.scope id

/-- An error with no key of a closed context. -/
def Error.anonymous : Error → Error
  | .contextClosed _ => .contextClosed 0
  | e => e

namespace Bridge

/-- A result with no key of a closed context. -/
def anonymous (r : Except Error Value) : Except Error Value := r.mapError Error.anonymous

theorem anonymous_refused (op : ContextOp) (id id' : ContextId) :
    anonymous (op.refused id) = anonymous (op.refused id') := by
  rw [ContextOp.refused, ContextOp.refused]
  cases op.text? <;> rfl

/-- No engine was started yet, or one and it is alive. -/
def Single (slot : Option ProcessId) (s : Scene) : Prop :=
  (slot = none ∧ s.views = []) ∨ ∃ v, slot = some 0 ∧ s.views = [v] ∧ v.isAlive

/-- The key of a client, once it has one. -/
def Stance.key? : Stance → Option ContextId
  | outside => none
  | keyed id => some id
  | seated session => some session.id
  | failing c _ => some c.id
  | inside c _ => some c.id
  | refused => none

/-- The session of a client at the first engine. -/
def sessionOf (d : Descriptor) (id : ContextId) : PipeSession := ⟨id, d.syntaxMarker, .shared 0⟩

/-- A client at the engine is as far as alone, and its scope is the same. -/
inductive Agrees (d : Descriptor) (s : Scene) : Stance → Alone.Stance → Prop
  | outside : Agrees d s .outside .outside
  | keyed {id : ContextId} (h : s.scope 0 id = []) : Agrees d s (.keyed id) .keyed
  | seated {id : ContextId} (h : s.scope 0 id = []) (hs : s.views ≠ []) :
      Agrees d s (.seated (sessionOf d id)) .seated
  | failing {id : ContextId} {name : String} {e : Error} (hs : s.views ≠ []) :
      Agrees d s (.failing ⟨id, name, some (sessionOf d id)⟩ e) (.failing e)
  | inside {id : ContextId} {name : String} {scope : Engine.Scope} {rest : List ContextOp}
      (h : s.scope 0 id = scope) (hs : s.views ≠ []) :
      Agrees d s (.inside ⟨id, name, some (sessionOf d id)⟩ rest) (.inside (some scope) rest)
  | closed {id : ContextId} {name : String} {rest : List ContextOp} :
      Agrees d s (.inside ⟨id, name, none⟩ rest) (.inside none rest)
  | refused : Agrees d s .refused .refused

/-- What happens to the scopes of others does not matter. -/
theorem Agrees.frame {d : Descriptor} {s s' : Scene} {stance : Stance} {alone : Alone.Stance}
    (h : Agrees d s stance alone)
    (hscope : ∀ id, stance.key? = some id → s'.scope 0 id = s.scope 0 id)
    (hviews : s.views ≠ [] → s'.views ≠ []) : Agrees d s' stance alone := by
  cases h with
  | outside => exact .outside
  | keyed h => exact .keyed ((hscope _ rfl).trans h)
  | seated h hs => exact .seated ((hscope _ rfl).trans h) (hviews hs)
  | failing hs => exact .failing (hviews hs)
  | inside h hs => exact .inside ((hscope _ rfl).trans h) (hviews hs)
  | closed => exact .closed
  | refused => exact .refused

/-! ### One engine -/

/-- A source text that does not end the engine is answered as alone, and no other scope is touched. -/
theorem evaluate_alone [Build] {d : Descriptor} {v : EngineView} (ha : v.isAlive) (id : ContextId) {source : String}
    (hexit : Alone.exits source (v.scope id) = false) :
    (v.evaluate d.name d.syntaxMarker id source).1 = Alone.answer d source (v.scope id) ∧
      (v.evaluate d.name d.syntaxMarker id source).2.isAlive ∧
      (v.evaluate d.name d.syntaxMarker id source).2.scope id = (Alone.outcome source (v.scope id)).2 ∧
      ∀ other, other ≠ id →
        (v.evaluate d.name d.syntaxMarker id source).2.scope other = v.scope other := by
  rw [EngineView.evaluate, if_pos ha]
  refine ⟨?_, ?_, Engine.Table.scope_keep_self _ _ _, fun other hne =>
    Engine.Table.scope_keep_of_ne _ hne _⟩
  · show hostResult d.name d.syntaxMarker id (Alone.outcome source (v.scope id)).1 = _
    rw [Alone.answer]
    rw [Alone.exits] at hexit
    generalize (Alone.outcome source (v.scope id)).1 = o at hexit
    cases o with
    | value v => rfl
    | error message => rfl
    | exit => cases hexit
  · show (Alone.outcome source (v.scope id)).1.response?.isSome = true
    rw [← Option.not_isNone]
    rw [Alone.exits] at hexit
    rw [hexit]
    rfl

namespace Single

variable {slot : Option ProcessId} {s : Scene}

theorem exists_view (h : Single slot s) (hs : s.views ≠ []) :
    ∃ v, slot = some 0 ∧ s.views[0]? = some v ∧ v.isAlive ∧ s.views = [v] := by
  rcases h with ⟨-, hnil⟩ | ⟨v, hslot, hv, ha⟩
  · exact absurd hnil hs
  · exact ⟨v, hslot, by rw [hv]; rfl, ha, hv⟩

theorem change (h : Single slot s) {f : EngineView → EngineView}
    (hf : ∀ v, s.views[0]? = some v → v.isAlive → (f v).isAlive) : Single slot (s.change 0 f) := by
  rcases h with ⟨hslot, hnil⟩ | ⟨v, hslot, hv, ha⟩
  · refine Or.inl ⟨hslot, ?_⟩
    rw [Scene.change, hnil]
    rfl
  · refine Or.inr ⟨f v, hslot, ?_, hf v (by rw [hv]; rfl) ha⟩
    rw [Scene.change, hv]
    rfl

/-- An engine for a context is the one that is there, or a fresh one if there is none. -/
theorem attach (h : Single slot s) :
    (s.attach true slot).1 = .shared 0 ∧ Single (s.attach true slot).2.1 (s.attach true slot).2.2 ∧
      (s.attach true slot).2.2.views ≠ [] ∧
      (∀ id, (s.attach true slot).2.2.scope 0 id = s.scope 0 id) ∧
      (s.attach true slot).2.2.nextContext = s.nextContext := by
  rcases h with ⟨rfl, hnil⟩ | ⟨v, rfl, hv, ha⟩
  · have hattach : s.attach true none = (.shared 0, some 0, { s with views := [.fresh] }) := by
      rw [Scene.attach, if_pos rfl, Scene.launch, hnil]
      rfl
    rw [hattach]
    refine ⟨rfl, Or.inr ⟨.fresh, rfl, rfl, rfl⟩, List.cons_ne_nil _ _, fun id => ?_, rfl⟩
    rw [Scene.scope, Scene.scope, hnil]
    rfl
  · have halive : s.isAlive 0 = true := by
      rw [Scene.isAlive, hv]
      exact ha
    have hattach : s.attach true (some 0) = (.shared 0, some 0, s) := by
      rw [Scene.attach, if_pos rfl, Option.filter, if_pos halive]
    rw [hattach]
    exact ⟨rfl, Or.inr ⟨v, rfl, hv, ha⟩, hv ▸ List.cons_ne_nil _ _, fun _ => rfl, rfl⟩

end Single

theorem scope_of_get {s : Scene} {p : ProcessId} {v : EngineView} (h : s.views[p]? = some v)
    (id : ContextId) : s.scope p id = v.scope id := by
  rw [Scene.scope, h]

/-- The engine has done something for one context. -/
structure Touched (slot : Option ProcessId) (s : Scene) (id : ContextId) (s' : Scene) : Prop where
  single : Single slot s'
  others : ∀ other, other ≠ id → s'.scope 0 other = s.scope 0 other
  views : s'.views ≠ []
  next : s'.nextContext = s.nextContext

theorem touched_change {slot : Option ProcessId} {s : Scene} (h : Single slot s) {v : EngineView}
    (hv : s.views[0]? = some v) {id : ContextId} {f : EngineView → EngineView} (ha : (f v).isAlive)
    (hf : ∀ other, other ≠ id → (f v).scope other = v.scope other) : Touched slot s id (s.change 0 f) where
  single := h.change fun u hu _ => by
    rw [hv] at hu
    cases hu
    exact ha
  others other hne := by
    rw [scope_of_get (Scene.get_change_self hv), scope_of_get hv]
    exact hf other hne
  views := by
    intro hnil
    have hget := Scene.get_change_self (f := f) hv
    rw [hnil] at hget
    cases hget
  next := rfl

section

variable [Build] {ω : Type} {d : Descriptor} (hsafe : d.framing.IsSafe) {x : External ω Station}
  {w : World ω Station} {slot : Option ProcessId} {s : Scene}
  (hh : External.Hosts d (x, w) (slot, s)) (hs : Single slot s) (hviews : s.views ≠ [])
  {c : Context PipeSession} {id : ContextId} (hc : c.session = some (sessionOf d id))

include hsafe hh hs hviews hc

/-- A client has a source text evaluated. -/
theorem evaluate_single {source : String} (hexit : Alone.exits source (s.scope 0 id) = false) :
    ∃ w' s', c.evaluateString source w = (Alone.answer d source (s.scope 0 id), w') ∧
      External.Hosts d (x, w') (slot, s') ∧ Touched slot s id s' ∧
      s'.scope 0 id = (Alone.outcome source (s.scope 0 id)).2 := by
  obtain ⟨v, -, hv, halive, -⟩ := hs.exists_view hviews
  rw [scope_of_get hv] at hexit ⊢
  obtain ⟨hanswer, halive', hscope, hothers⟩ := evaluate_alone (d := d) halive id hexit
  obtain ⟨hresult, hw⟩ :=
    Context.evaluateString_alike (World.sessionsAlike hsafe) c source w s hh.world
  rw [Scene.evaluateString_fst hc source hv, hh.world.runtime] at hresult
  rw [Scene.evaluateString_snd hc, hh.world.runtime] at hw
  refine ⟨_, s.change 0 _, Prod.ext (hresult.trans hanswer) rfl, hh.beside hw,
    touched_change hs hv halive' hothers, ?_⟩
  exact (scope_of_get (Scene.get_change_self hv) id).trans hscope

/-- A client releases its context. -/
theorem release_single : ∃ w' s', c.release w = (.ok (), w') ∧ External.Hosts d (x, w') (slot, s') ∧
    Touched slot s id s' := by
  obtain ⟨v, -, hv, halive, -⟩ := hs.exists_view hviews
  obtain ⟨hresult, hw⟩ := Context.release_alike (World.sessionsAlike hsafe) c w s hh.world
  rw [Scene.release_of_session hc] at hresult hw
  have hrelease : EngineView.release (.shared 0) id v = v.teardown id := if_pos halive
  refine ⟨_, s.change 0 _, Prod.ext hresult rfl, hh.beside hw, touched_change hs hv ?_ ?_⟩
  · exact hrelease ▸ halive
  · intro other hne
    exact (congrArg (EngineView.scope · other) hrelease).trans
      (Engine.Table.scope_forget_of_ne v.table hne)

end

/-! ### One turn -/

/-- What one turn of a client keeps: it is as far as alone, has got the same, and has left the scopes of
others as they were. -/
structure Turned [Build] {ω : Type} (d : Descriptor) (s : Scene) (m : Member) (alone : Alone)
    (r : Member × External ω Station × World ω Station) (slot' : Option ProcessId) (s' : Scene) : Prop where
  hosts : External.Hosts d r.2 (slot', s')
  single : Single slot' s'
  agrees : Agrees d s' r.1.stance alone.stance
  results : r.1.results.map anonymous = alone.results.map anonymous
  key : ∀ id, r.1.stance.key? = some id → m.stance.key? = some id
  others : ∀ other, m.stance.key? ≠ some other → s'.scope 0 other = s.scope 0 other
  views : s.views ≠ [] → s'.views ≠ []
  next : s'.nextContext = s.nextContext

section

variable [Build] {ω : Type} {d : Descriptor} {client : Client} {x : External ω Station} {w : World ω Station}
  {slot : Option ProcessId} {s : Scene}

/-- Nothing is left to do. -/
theorem turned_still (hh : External.Hosts d (x, w) (slot, s)) (hs : Single slot s) {m : Member}
    {alone : Alone} (ha : Agrees d s m.stance alone.stance)
    (hr : m.results.map anonymous = alone.results.map anonymous) :
    Turned d s m alone (m, x, w) slot s :=
  ⟨hh, hs, ha, hr, fun _ h => h, fun _ _ => rfl, fun h => h, rfl⟩

/-- The engine has done something for the client whose turn it is. -/
theorem Touched.turned {m : Member} {alone : Alone} {id : ContextId} {s' : Scene} (h : Touched slot s id s')
    (hid : m.stance.key? = some id) {r : Member × External ω Station × World ω Station}
    (hh : External.Hosts d r.2 (slot, s')) (ha : Agrees d s' r.1.stance alone.stance)
    (hr : r.1.results.map anonymous = alone.results.map anonymous)
    (hkey : ∀ id, r.1.stance.key? = some id → m.stance.key? = some id) :
    Turned d s m alone r slot s' where
  hosts := hh
  single := h.single
  agrees := ha
  results := hr
  key := hkey
  others other hne := h.others other fun heq => hne (hid.trans (congrArg some heq.symm))
  views _ := h.views
  next := h.next

omit [Build] in
theorem map_append_result {results results' : List (Except Error Value)} {r r' : Except Error Value}
    (h : results.map anonymous = results'.map anonymous) (hr : anonymous r = anonymous r') :
    (results ++ [r]).map anonymous = (results' ++ [r']).map anonymous := by
  rw [List.map_append, List.map_append, h, List.map_singleton, List.map_singleton, hr]

variable (hsafe : d.framing.IsSafe) (hshared : d.isShared) (hh : External.Hosts d (x, w) (slot, s))
  (hs : Single slot s) {results : List (Except Error Value)} {alone : Alone}
  (hr : results.map anonymous = alone.results.map anonymous) {id : ContextId}

include hh hs hr

include hshared in
theorem turned_keyed (ha : alone.stance = .keyed) (hscope : s.scope 0 id = []) :
    ∃ slot' s', Turned d s ⟨.keyed id, results⟩ (alone.turn d client)
      (Member.turn client (⟨.keyed id, results⟩, x, w)) slot' s' := by
  obtain ⟨⟨x', w'⟩, hstart, hh'⟩ := External.start_hosts hh
  obtain ⟨hhandle, hsingle, hviews, hscopes, hnext⟩ := hs.attach
  rw [show d.isShared = true from hshared] at hstart hh'
  have hd' : x'.descriptor = d := hh'.descriptor
  have halone : alone.turn d client = { alone with stance := .seated } := by rw [Alone.turn, ha]
  rw [Member.turn_keyed_of_ok hstart, halone, hd', hhandle]
  exact ⟨_, _, hh', hsingle, .seated ((hscopes id).trans hscope) hviews, hr, fun _ h => h,
    fun other _ => hscopes other, fun _ => hviews, hnext⟩

include hsafe

theorem turned_seated (ha : alone.stance = .seated) (hscope : s.scope 0 id = []) (hviews : s.views ≠ [])
    (hexit : (alone.turn d client).hasExited = false) :
    ∃ slot' s', Turned d s ⟨.seated (sessionOf d id), results⟩ (alone.turn d client)
      (Member.turn client (⟨.seated (sessionOf d id), results⟩, x, w)) slot' s' := by
  have hexits : Alone.exits client.preamble (s.scope 0 id) = false := by
    rw [hscope]
    rw [Alone.turn, ha] at hexit
    dsimp only at hexit
    split at hexit <;> exact (Bool.or_eq_false_iff.1 hexit).2
  obtain ⟨w', s', heval, hh', htouched, hscope'⟩ := evaluate_single hsafe hh hs hviews
    (c := ⟨id, x.descriptor.name, some (sessionOf d id)⟩) rfl hexits
  rw [hscope] at heval hscope'
  refine ⟨slot, s', ?_⟩
  cases hanswer : Alone.answer d client.preamble [] with
  | ok v =>
    rw [hanswer] at heval
    rw [Member.turn_seated_of_ok heval, Alone.turn_seated_of_ok ha hanswer]
    exact htouched.turned rfl hh' (.inside hscope' htouched.views) (map_append_result hr rfl) fun _ h => h
  | error e =>
    rw [hanswer] at heval
    rw [Member.turn_seated_of_error heval, Alone.turn_seated_of_error ha hanswer]
    exact htouched.turned rfl hh' (.failing htouched.views) hr fun _ h => h

theorem turned_failing {name : String} {e : Error} (ha : alone.stance = .failing e) (hviews : s.views ≠ []) :
    ∃ slot' s', Turned d s ⟨.failing ⟨id, name, some (sessionOf d id)⟩ e, results⟩ (alone.turn d client)
      (Member.turn client (⟨.failing ⟨id, name, some (sessionOf d id)⟩ e, results⟩, x, w)) slot' s' := by
  obtain ⟨w', s', hrelease, hh', htouched⟩ := release_single hsafe hh hs hviews
    (c := ⟨id, name, some (sessionOf d id)⟩) rfl
  have halone : alone.turn d client =
      { alone with stance := .refused, results := alone.results ++ [.error e] } := by
    rw [Alone.turn, ha]
  rw [Member.turn_failing, hrelease, halone]
  exact ⟨slot, s', htouched.turned rfl hh' .refused (map_append_result hr rfl) fun _ h => by cases h⟩

theorem turned_inside {name : String} {op : ContextOp} {rest : List ContextOp}
    (ha : alone.stance = .inside (some (s.scope 0 id)) (op :: rest)) (hviews : s.views ≠ [])
    (hexit : (alone.turn d client).hasExited = false) :
    ∃ slot' s', Turned d s ⟨.inside ⟨id, name, some (sessionOf d id)⟩ (op :: rest), results⟩
      (alone.turn d client)
      (Member.turn client (⟨.inside ⟨id, name, some (sessionOf d id)⟩ (op :: rest), results⟩, x, w))
      slot' s' := by
  let c : Context PipeSession := ⟨id, name, some (sessionOf d id)⟩
  rw [Member.turn_inside]
  by_cases hop : op.isClose
  · obtain ⟨w', s', hrelease, hh', htouched⟩ := release_single hsafe hh hs hviews (c := c) rfl
    have hrun : op.run (c, w) = (.ok .null, c.closed, w') := by
      cases op with
      | close =>
        rw [ContextOp.run_close, hrelease]
        rfl
      | _ => cases hop
    rw [hrun, Alone.turn_inside_of_close ha hop]
    exact ⟨slot, s', htouched.turned rfl hh' .closed (map_append_result hr rfl) fun _ h => h⟩
  · have hopen : op.isClose = false := Bool.not_eq_true _ ▸ hop
    cases ht : op.text? with
    | none =>
      have hrun : op.run (c, w) = (.ok .null, c, w) := by
        rw [ContextOp.run_eq c hopen, ht]
      rw [hrun, Alone.turn_inside_of_blank ha hopen ht]
      exact ⟨slot, s, hh, hs, .inside rfl hviews, map_append_result hr rfl, fun _ h => h,
        fun _ _ => rfl, fun h => h, rfl⟩
    | some text =>
      rw [Alone.turn_inside_of_text ha hopen ht] at hexit ⊢
      obtain ⟨w', s', heval, hh', htouched, hscope⟩ := evaluate_single hsafe hh hs hviews (c := c) rfl
        (Bool.or_eq_false_iff.1 hexit).2
      have hrun : op.run (c, w) = (op.unpacked (Alone.answer d text (s.scope 0 id)), c, w') := by
        rw [ContextOp.run_eq c hopen, ht]
        dsimp only
        rw [heval]
      rw [hrun]
      exact ⟨slot, s', htouched.turned rfl hh' (.inside hscope htouched.views) (map_append_result hr rfl)
        fun _ h => h⟩

omit hsafe in
theorem turned_closed {name : String} {op : ContextOp} {rest : List ContextOp}
    (ha : alone.stance = .inside none (op :: rest)) :
    ∃ slot' s', Turned d s ⟨.inside ⟨id, name, none⟩ (op :: rest), results⟩ (alone.turn d client)
      (Member.turn client (⟨.inside ⟨id, name, none⟩ (op :: rest), results⟩, x, w)) slot' s' := by
  have halone : alone.turn d client =
      { alone with stance := .inside none rest, results := alone.results ++ [op.refused 0] } := by
    rw [Alone.turn, ha]
  rw [Member.turn_inside, ContextOp.run_of_closed rfl, halone]
  exact ⟨slot, s, hh, hs, .closed, map_append_result hr (anonymous_refused op id 0), fun _ h => h,
    fun _ _ => rfl, fun h => h, rfl⟩

omit hh hs hr in
include hshared in
/-- **Every turn of a client that has a key keeps it as far as alone.** -/
theorem turned {m : Member} (hh : External.Hosts d (x, w) (slot, s)) (hs : Single slot s)
    (hm : m.stance ≠ .outside) (ha : Agrees d s m.stance alone.stance)
    (hr : m.results.map anonymous = alone.results.map anonymous)
    (hexit : (alone.turn d client).hasExited = false) :
    ∃ slot' s', Turned d s m (alone.turn d client) (Member.turn client (m, x, w)) slot' s' := by
  obtain ⟨stance, results⟩ := m
  dsimp only at ha hr hm
  generalize hstance : alone.stance = aloneStance at ha
  cases ha with
  | outside => exact absurd rfl hm
  | keyed hscope => exact turned_keyed hshared hh hs hr hstance hscope
  | seated hscope hviews => exact turned_seated hsafe hh hs hr hstance hscope hviews hexit
  | failing hviews => exact turned_failing hsafe hh hs hr hstance hviews
  | @inside id name scope rest hscope hviews =>
    cases rest with
    | nil =>
      have halone : alone.turn d client = alone := by rw [Alone.turn, hstance]
      rw [halone]
      exact ⟨slot, s, turned_still hh hs (hstance ▸ .inside hscope hviews) hr⟩
    | cons op rest => exact turned_inside hsafe hh hs hr (hscope.symm ▸ hstance) hviews hexit
  | @closed id name rest =>
    cases rest with
    | nil =>
      have halone : alone.turn d client = alone := by rw [Alone.turn, hstance]
      rw [halone]
      exact ⟨slot, s, turned_still hh hs (hstance ▸ .closed) hr⟩
    | cons op rest => exact turned_closed hh hs hr hstance
  | refused =>
    have halone : alone.turn d client = alone := by rw [Alone.turn, hstance]
    rw [halone]
    exact ⟨slot, s, turned_still hh hs (hstance ▸ .refused) hr⟩

end

/-! ### All clients -/

/-- Every client is as far as alone, with a key of its own; `started` are those that have taken a turn. -/
structure Isolated [Build] {κ ω : Type} (d : Descriptor) (first : ContextId) (started : Finset κ) (room : Room κ ω)
    (alone : κ → Alone) (slot : Option ProcessId) (s : Scene) : Prop where
  hosts : External.Hosts d (room.runtime, room.world) (slot, s)
  single : Single slot s
  begun : ∀ k, k ∈ started ↔ (room.members k).stance ≠ .outside
  next : s.nextContext = keyAt first started.card
  fresh : ∀ i, started.card ≤ i → i < UInt64.size → s.scope 0 (keyAt first i) = []
  agrees : ∀ k, Agrees d s (room.members k).stance (alone k).stance
  results : ∀ k, (room.members k).results.map anonymous = (alone k).results.map anonymous
  used : ∀ k id, (room.members k).stance.key? = some id → ∃ i < started.card, id = keyAt first i
  distinct : ∀ j k id, (room.members j).stance.key? = some id → (room.members k).stance.key? = some id → j = k

/-- What holds of the client whose turn it was, and of all others, holds of all. -/
theorem forall_update {κ : Type} [DecidableEq κ] (P : κ → Member → Alone → Prop) {f : κ → Member}
    {g : κ → Alone} {k : κ} {m : Member} {a : Alone} (hk : P k m a)
    (hothers : ∀ j, j ≠ k → P j (f j) (g j)) (j : κ) :
    P j (Function.update f k m j) (Function.update g k a j) := by
  by_cases hj : j = k
  · subst hj
    rw [Function.update_self, Function.update_self]
    exact hk
  · rw [Function.update_of_ne hj, Function.update_of_ne hj]
    exact hothers j hj

namespace Isolated

variable [Build] {κ ω : Type} [DecidableEq κ] {d : Descriptor} {first : ContextId} {started : Finset κ}
  {room : Room κ ω} {alone : κ → Alone} {slot : Option ProcessId} {s : Scene} {clients : κ → Client} {k : κ}

omit [DecidableEq κ] in
/-- The key of a client that has taken a turn is none of those that are still to be handed out. -/
theorem key_ne (h : Isolated d first started room alone slot s) {i : Nat} (hi : started.card ≤ i)
    (hsize : i < UInt64.size) : (room.members k).stance.key? ≠ some (keyAt first i) := by
  intro hkey
  obtain ⟨j, hj, heq⟩ := h.used k _ hkey
  exact absurd (keyAt_inj hsize (Nat.lt_trans (Nat.lt_of_lt_of_le hj hi) hsize) heq)
    (Nat.ne_of_gt (Nat.lt_of_lt_of_le hj hi))

/-- A client takes its first turn, and a key with it. -/
theorem turn_outside (h : Isolated d first started room alone slot s)
    (hk : (room.members k).stance = .outside) (hcard : (insert k started).card ≤ UInt64.size) :
    Isolated d first (insert k started) (room.turn clients k)
      (Function.update alone k ((alone k).turn d (clients k))) slot s.takeId.2 := by
  have hnot : k ∉ started := fun hm => (h.begun k).1 hm hk
  rw [Finset.card_insert_of_notMem hnot] at hcard
  obtain ⟨hid, hshows⟩ := h.hosts.world.takeId
  have hkey : room.world.takeId.1 = keyAt first started.card := hid.trans h.next
  have hroom : room.turn clients k =
      ⟨room.runtime, room.world.takeId.2, Function.update room.members k
        ⟨.keyed (keyAt first started.card), (room.members k).results⟩⟩ := by
    have hmember : room.members k = ⟨.outside, (room.members k).results⟩ := by rw [← hk]
    rw [Room.turn, hmember, Member.turn_outside, hkey]
  have halone : (alone k).turn d (clients k) = { alone k with stance := .keyed } := by
    have hagrees := h.agrees k
    rw [hk] at hagrees
    generalize hstance : (alone k).stance = stance at hagrees
    cases hagrees
    rw [Alone.turn, hstance]
  rw [hroom, halone]
  refine ⟨h.hosts.beside hshows, h.single, ?_, ?_, ?_, ?_, ?_, ?_, ?_⟩
  · apply forall_update (g := alone) (a := alone k) fun j m _ => j ∈ insert k started ↔ m.stance ≠ .outside
    · rw [iff_true_left (Finset.mem_insert_self k started)]
      intro hs
      cases hs
    · intro j hj
      rw [Finset.mem_insert, h.begun j, or_iff_right hj]
  · rw [Finset.card_insert_of_notMem hnot, ← keyAt_succ, ← h.next]
    rfl
  · rw [Finset.card_insert_of_notMem hnot]
    intro i hi
    exact h.fresh i (Nat.le_of_succ_le hi)
  · apply forall_update fun _ m a => Agrees d s.takeId.2 m.stance a.stance
    · exact .keyed (h.fresh _ (Nat.le_refl _) hcard)
    · intro j _
      exact (h.agrees j).frame (fun _ _ => rfl) (fun hs => hs)
  · apply forall_update fun _ m a => m.results.map anonymous = a.results.map anonymous
    · exact h.results k
    · intro j _
      exact h.results j
  · rw [Finset.card_insert_of_notMem hnot]
    apply forall_update (g := alone) (a := alone k)
      fun _ m _ => ∀ id, m.stance.key? = some id → ∃ i < started.card + 1, id = keyAt first i
    · intro id hid
      cases hid
      exact ⟨started.card, Nat.lt_succ_self _, rfl⟩
    · intro j _ id hid
      obtain ⟨i, hi, heq⟩ := h.used j id hid
      exact ⟨i, Nat.lt_succ_of_lt hi, heq⟩
  · intro j j' id hid hid'
    dsimp only at hid hid'
    by_cases hj : j = k <;> by_cases hj' : j' = k
    · exact hj.trans hj'.symm
    · subst hj
      rw [Function.update_self] at hid
      rw [Function.update_of_ne hj'] at hid'
      cases hid
      exact absurd hid' (h.key_ne (Nat.le_refl _) hcard)
    · subst hj'
      rw [Function.update_self] at hid'
      rw [Function.update_of_ne hj] at hid
      cases hid'
      exact absurd hid (h.key_ne (Nat.le_refl _) hcard)
    · rw [Function.update_of_ne hj] at hid
      rw [Function.update_of_ne hj'] at hid'
      exact h.distinct j j' id hid hid'

/-- A client takes another turn. -/
theorem turn_begun (hsafe : d.framing.IsSafe) (hshared : d.isShared)
    (h : Isolated d first started room alone slot s) (hk : (room.members k).stance ≠ .outside)
    (hexit : ((alone k).turn d (clients k)).hasExited = false) :
    ∃ slot' s', Isolated d first started (room.turn clients k)
      (Function.update alone k ((alone k).turn d (clients k))) slot' s' := by
  obtain ⟨slot', s', ht⟩ :=
    turned hsafe hshared h.hosts h.single hk (h.agrees k) (h.results k) hexit
  have hbegun : (Member.turn (clients k) (room.members k, room.runtime, room.world)).1.stance ≠ .outside :=
    Member.turn_ne_outside _
  obtain ⟨⟨m, x, w⟩, hturn⟩ :
      ∃ r, Member.turn (clients k) (room.members k, room.runtime, room.world) = r := ⟨_, rfl⟩
  have hroom : room.turn clients k = ⟨x, w, Function.update room.members k m⟩ := by
    rw [Room.turn, hturn]
  rw [hturn] at ht hbegun
  rw [hroom]
  -- The scope of another client, or of a key that was not handed out, is left alone.
  have hscope : ∀ j id, j ≠ k → (room.members j).stance.key? = some id →
      s'.scope 0 id = s.scope 0 id := by
    intro j id hj hid
    apply ht.others
    intro hkey
    exact hj (h.distinct j k id hid hkey)
  refine ⟨slot', s', ht.hosts, ht.single, ?_, ht.next.trans h.next, ?_, ?_, ?_, ?_, ?_⟩
  · apply forall_update (g := alone) (a := alone k) fun j m _ => j ∈ started ↔ m.stance ≠ .outside
    · exact iff_of_true ((h.begun k).2 hk) hbegun
    · intro j _
      exact h.begun j
  · intro i hi hsize
    exact (ht.others _ (h.key_ne hi hsize)).trans (h.fresh i hi hsize)
  · apply forall_update fun _ m a => Agrees d s' m.stance a.stance
    · exact ht.agrees
    · intro j hj
      exact (h.agrees j).frame (fun id hid => hscope j id hj hid) ht.views
  · apply forall_update fun _ m a => m.results.map anonymous = a.results.map anonymous
    · exact ht.results
    · intro j _
      exact h.results j
  · apply forall_update (g := alone) (a := alone k)
      fun _ m _ => ∀ id, m.stance.key? = some id → ∃ i < started.card, id = keyAt first i
    · intro id hid
      exact h.used k id (ht.key id hid)
    · intro j _
      exact h.used j
  · intro j j' id hid hid'
    dsimp only at hid hid'
    have hold : ∀ i, (Function.update room.members k m i).stance.key? = some id →
        (room.members i).stance.key? = some id := by
      apply forall_update (g := alone) (a := alone k)
        fun i m _ => m.stance.key? = some id → (room.members i).stance.key? = some id
      · exact ht.key id
      · intro i _ hi
        exact hi
    exact h.distinct j j' id (hold j hid) (hold j' hid')

/-- **A turn keeps clients isolated.** -/
theorem turn (hsafe : d.framing.IsSafe) (hshared : d.isShared)
    (h : Isolated d first started room alone slot s) (hcard : (insert k started).card ≤ UInt64.size)
    (hexit : ((alone k).turn d (clients k)).hasExited = false) :
    ∃ slot' s', Isolated d first (insert k started) (room.turn clients k)
      (Function.update alone k ((alone k).turn d (clients k))) slot' s' := by
  by_cases hk : (room.members k).stance = .outside
  · exact ⟨_, _, h.turn_outside hk hcard⟩
  · rw [Finset.insert_eq_of_mem ((h.begun k).2 hk)]
    exact h.turn_begun hsafe hshared hk hexit

/-- **A run keeps clients isolated.** -/
theorem run (hsafe : d.framing.IsSafe) (hshared : d.isShared) {schedule : List κ}
    (h : Isolated d first started room alone slot s)
    (hcard : (started ∪ schedule.toFinset).card ≤ UInt64.size)
    (hexit : ∀ k, ((Alone.turn d (clients k))^[schedule.count k] (alone k)).hasExited = false) :
    ∃ started' slot' s', Isolated d first started' (schedule.foldl (Room.turn clients) room)
      (fun k => (Alone.turn d (clients k))^[schedule.count k] (alone k)) slot' s' := by
  induction schedule generalizing started room alone slot s with
  | nil => exact ⟨started, slot, s, h⟩
  | cons k schedule ih =>
    have hturns : ∀ j, (Alone.turn d (clients j))^[(k :: schedule).count j] (alone j) =
        (Alone.turn d (clients j))^[schedule.count j]
          (Function.update alone k ((alone k).turn d (clients k)) j) := by
      intro j
      by_cases hj : j = k
      · subst hj
        rw [List.count_cons_self, Function.iterate_succ_apply, Function.update_self]
      · rw [List.count_cons_of_ne (Ne.symm hj), Function.update_of_ne hj]
    have hunion : started ∪ (k :: schedule).toFinset = insert k started ∪ schedule.toFinset := by
      rw [List.toFinset_cons, Finset.union_insert, Finset.insert_union]
    rw [hunion] at hcard
    have hfirst : ((alone k).turn d (clients k)).hasExited = false := by
      have hlater := hexit k
      rw [hturns k, Function.update_self] at hlater
      rw [← Bool.not_eq_true]
      intro hexited
      rw [Alone.hasExited_iterate hexited] at hlater
      cases hlater
    obtain ⟨slot', s', hturn⟩ := h.turn hsafe hshared
      (Nat.le_trans (Finset.card_le_card Finset.subset_union_left) hcard) hfirst
    have hgoal := ih hturn hcard fun j => (congrArg Alone.hasExited (hturns j)).symm.trans (hexit j)
    rw [funext hturns]
    exact hgoal

end Isolated

/-! ### In every order of turns -/

namespace Room

variable [Build] {κ ω : Type} [DecidableEq κ] {d : Descriptor}

/-- A client that gives a name a value, and one that does not find the name. -/
def pair : Bool → Client
  | true => ⟨"x = 1", [.evaluateString "x", .close]⟩
  | false => ⟨"x", []⟩

end Room

end Bridge

end EnginePipe
