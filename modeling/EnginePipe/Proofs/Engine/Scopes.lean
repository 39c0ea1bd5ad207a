import EnginePipe.Engine.Script
import EnginePipe.Proofs.Json.Soundness
import EnginePipe.Proofs.Text.Escaping

/-!
# Sound scopes

The values in a scope come from source texts: literals, sums, and what is read from the arguments of a
call, which stands inside an array.  So they are sound and nest one level less than what may be read;
one level is left for the array that a value is sent in.

* `sound_of_evaluate`: **evaluation keeps a scope sound and gives a sound value**.
* `evaluate_of_plain`, `expression_eq`: a source text without wrappers, and what each form comes to.
* `escape_asJson`: the wrapper around an expression stays what it is in ASCII form.
* `evaluate_asJson`: what the engine makes of a wrapped expression.
-/

namespace EnginePipe.Engine

open Json (Value)

/-- How deep the values of a scope may nest. -/
def scopeNesting : Nat := 126

/-- All values of a scope are sound. -/
def SoundScope (scope : Scope) : Prop := ∀ entry ∈ scope, entry.2.Sound scopeNesting

/-- The value of an outcome, if it has one, is sound. -/
def Outcome.Sound : Outcome → Prop
  | .value v => v.Sound scopeNesting
  | .error _ => True
  | .exit => True

/-- A sound outcome and a sound scope that it leaves. -/
def SoundResult (r : Outcome × Scope) : Prop := r.1.Sound ∧ SoundScope r.2

theorem soundScope_nil : SoundScope [] := fun _ h => absurd h List.not_mem_nil

theorem SoundScope.insertField {scope : Scope} (h : SoundScope scope) {v : Value}
    (hv : v.Sound scopeNesting) (name : String) : SoundScope (Json.insertField name v scope) := by
  intro entry hm
  rcases Json.mem_of_mem_insertField hm with rfl | hm
  · exact hv
  · exact h entry hm

theorem SoundScope.of_lookup {scope : Scope} (h : SoundScope scope) {name : String} {v : Value}
    (hl : scope.lookup name = some v) : v.Sound scopeNesting := by
  induction scope with
  | nil => cases hl
  | cons entry scope ih =>
    rw [List.lookup_cons] at hl
    split at hl
    · cases hl
      exact h entry List.mem_cons_self
    · exact ih (fun e he => h e (List.mem_cons_of_mem _ he)) hl

/-! ### Forms -/

theorem sound_integer_of_isTerm {n : Int} (h : isTerm n) (depth : Nat) : (Value.integer n).Sound depth := by
  obtain ⟨hl, hu⟩ := isTerm_iff.1 h
  rw [minTerm] at hl
  rw [maxTerm] at hu
  refine .integer ?_ ?_
  · rw [Json.minInteger]
    exact hl
  · rw [Json.maxInteger]
    omega

theorem isTerm_of_integer? {cs : List Char} {n : Int} (h : integer? cs = some n) : isTerm n := by
  unfold integer? at h
  exact (Option.filter_eq_some_iff.1 h).2

theorem sound_of_literal? {cs : List Char} {v : Value} (h : literal? cs = some v) (depth : Nat) :
    v.Sound depth := by
  unfold literal? at h
  split at h
  · cases h
    exact .bool true
  · cases h
    exact .bool false
  · cases h
    exact .null
  · cases h
    exact .null
  · split at h
    · next n hn =>
      cases h
      exact sound_integer_of_isTerm (isTerm_of_integer? hn) depth
    · obtain ⟨s, _, rfl⟩ := Option.map_eq_some_iff.1 h
      exact .string s

theorem sound_throwOutcome (thrown : List Char) : (throwOutcome thrown).Sound := by
  unfold throwOutcome
  split <;> trivial

theorem sound_of_mem_readArray? {text : String} {items : List Value}
    (h : Json.readArray? text = some items) : ∀ item ∈ items, item.Sound scopeNesting := by
  unfold Json.readArray? at h
  split at h
  · next hread =>
    cases h
    exact (Json.sound_of_read hread).items
  · cases h

theorem sound_echoOutcome [Build] (arguments : List Char) : (echoOutcome arguments).Sound := by
  unfold echoOutcome
  split
  · next items h =>
    cases items with
    | nil => exact .null
    | cons item items => exact sound_of_mem_readArray? h item List.mem_cons_self
  · trivial

theorem sound_lookupOutcome {scope : Scope} (h : SoundScope scope) (name : List Char) :
    (lookupOutcome name scope).Sound := by
  unfold lookupOutcome
  split
  · next hl => exact h.of_lookup hl
  · trivial

variable [Build]

theorem sound_addTerms {ts : List (List Char)}
    {eval : (t : List Char) → t ∈ ts → Scope → Outcome × Scope}
    (h : ∀ t ht scope, SoundScope scope → SoundResult (eval t ht scope)) {total : Int}
    (ht : isTerm total) {scope : Scope} (hs : SoundScope scope) :
    SoundResult (addTerms ts eval total scope) := by
  induction ts generalizing total scope with
  | nil => exact ⟨sound_integer_of_isTerm ht _, hs⟩
  | cons t ts ih =>
    have hres := h t (.head ts) scope hs
    rw [addTerms]
    split
    · next n scope' he =>
      rw [he] at hres
      split
      · split
        · next sum hsum => exact ih (fun u hu => h u (.tail t hu)) (isTerm_of_addTerm? hsum) hres.2
        · exact ⟨trivial, hres.2⟩
      · exact ⟨trivial, hres.2⟩
    · next he =>
      rw [he] at hres
      exact ⟨trivial, hres.2⟩
    · next he =>
      rw [he] at hres
      exact hres

/-! ### Evaluation -/

theorem sound_expression (cs : List Char) {scope : Scope} (hs : SoundScope scope) :
    SoundResult (expression cs scope) := by
  induction hn : cs.length using Nat.strongRecOn generalizing cs scope with
  | ind n ih =>
    rw [expression]
    split
    · exact ⟨trivial, hs⟩
    · exact ⟨.null, hs⟩
    · exact ⟨trivial, hs⟩
    · exact ⟨sound_throwOutcome _, hs⟩
    · exact ⟨sound_echoOutcome _, hs⟩
    · next name rhs hf =>
      have hres := ih rhs.length (hn ▸ Form.of_assignment_length hf) rhs hs rfl
      split
      · next v scope' he =>
        rw [he] at hres
        exact ⟨hres.1, hres.2.insertField hres.1 _⟩
      · next he =>
        rw [he] at hres
        exact hres
    · next ts hf =>
      refine sound_addTerms (fun t ht scope' hs' => ?_) (by decide) hs
      exact ih t.length (hn ▸ Form.of_sum_length hf t ht) t hs' rfl
    · next v hf => exact ⟨sound_of_literal? (Form.fits hf) _, hs⟩
    · exact ⟨sound_lookupOutcome hs _, hs⟩
    · exact ⟨trivial, hs⟩

/-- **Evaluation keeps a scope sound and gives a sound value.** -/
theorem sound_of_evaluate (cs : List Char) {scope : Scope} (hs : SoundScope scope) :
    SoundResult (evaluate cs scope) := by
  induction hn : cs.length using Nat.strongRecOn generalizing cs scope with
  | ind n ih =>
    rw [evaluate]
    split
    · next inner hj =>
      have hlt := Text.length_lt_of_between? jsonOpen_ne_nil hj
      have hres := ih inner.length (hn ▸ hlt) inner hs rfl
      split
      · next v scope' he =>
        rw [he] at hres
        exact ⟨.string _, hres.2⟩
      · next he =>
        rw [he] at hres
        exact hres
    split
    · next body hf =>
      have hlt := Text.length_lt_of_between? functionOpen_ne_nil hf
      have hle := Text.length_trim_le body
      split
      · exact ⟨.null, hs⟩
      split
      · next returned hr =>
        have hret := Text.length_le_of_stripPrefix? hr
        exact ih returned.length (by omega) returned hs rfl
      · have hres := ih (Text.trim body).length (by omega) (Text.trim body) hs rfl
        split
        · next he =>
          rw [he] at hres
          exact ⟨.null, hres.2⟩
        · next he =>
          rw [he] at hres
          exact hres
    · exact sound_expression (Text.trim cs) hs

/-! ### Plain source texts -/

theorem evaluate_of_plain {cs : List Char} {scope : Scope}
    (hj : Text.between? Source.jsonOpen.toList Source.jsonClose.toList cs = none)
    (hf : Text.between? Source.functionOpen.toList Source.functionClose.toList cs = none) :
    evaluate cs scope = expression (Text.trim cs) scope := by
  rw [evaluate]
  split
  · next h =>
    rw [hj] at h
    cases h
  split
  · next h =>
    rw [hf] at h
    cases h
  · rfl

/-- What each form comes to. -/
theorem expression_eq (cs : List Char) (scope : Scope) :
    expression cs scope = match Form.of cs with
      | .exit => (.exit, scope)
      | .blank => (.value .null, scope)
      | .unbalanced => (.error unbalancedMessage, scope)
      | .throw thrown => (throwOutcome thrown, scope)
      | .echo arguments => (echoOutcome arguments, scope)
      | .assignment name rhs => match expression rhs scope with
        | (.value v, scope') => (.value v, Json.insertField (String.ofList name) v scope')
        | (outcome, scope') => (outcome, scope')
      | .sum ts => addTerms ts (fun t _ scope => expression t scope) 0 scope
      | .literal v => (.value v, scope)
      | .name n => (lookupOutcome n scope, scope)
      | .unreadable => (.error ("SyntaxError: Unexpected token in " ++ String.ofList cs), scope) := by
  rw [expression]
  split <;> rename_i hf <;> (rewrite [hf]; rfl)

theorem expression_of_literal {cs : List Char} {scope : Scope} {v : Value} (h : Form.of cs = .literal v) :
    expression cs scope = (.value v, scope) := by
  rw [expression_eq, h]

theorem expression_eq_of_assignment {cs : List Char} {scope : Scope} {name rhs : List Char}
    (h : Form.of cs = .assignment name rhs) : expression cs scope = match expression rhs scope with
      | (.value v, scope') => (.value v, Json.insertField (String.ofList name) v scope')
      | (outcome, scope') => (outcome, scope') := by
  rw [expression_eq, h]

theorem expression_of_assignment {cs : List Char} {scope scope' : Scope} {name rhs : List Char} {v : Value}
    (h : Form.of cs = .assignment name rhs) (hr : expression rhs scope = (.value v, scope')) :
    expression cs scope = (.value v, Json.insertField (String.ofList name) v scope') := by
  rw [expression_eq_of_assignment h, hr]

theorem expression_of_name {cs name : List Char} {scope : Scope} (h : Form.of cs = .name name) :
    expression cs scope = (lookupOutcome name scope, scope) := by
  rw [expression_eq, h]

theorem expression_of_echo {cs arguments : List Char} {scope : Scope} (h : Form.of cs = .echo arguments) :
    expression cs scope = (echoOutcome arguments, scope) := by
  rw [expression_eq, h]

theorem expression_of_exit {cs : List Char} {scope : Scope} (h : Form.of cs = .exit) :
    expression cs scope = (.exit, scope) := by
  rw [expression_eq, h]

theorem expression_of_sum {cs : List Char} {scope : Scope} {ts : List (List Char)} (h : Form.of cs = .sum ts) :
    expression cs scope = addTerms ts (fun t _ scope => expression t scope) 0 scope := by
  rw [expression_eq, h]

theorem expression_of_throw {cs thrown : List Char} {scope : Scope} (h : Form.of cs = .throw thrown) :
    expression cs scope = (throwOutcome thrown, scope) := by
  rw [expression_eq, h]

theorem expression_of_unbalanced {cs : List Char} {scope : Scope} (h : Form.of cs = .unbalanced) :
    expression cs scope = (.error unbalancedMessage, scope) := by
  rw [expression_eq, h]

theorem evaluate_name_x (scope : Scope) :
    evaluate (Text.escape "x").toList scope = (lookupOutcome ['x'] scope, scope) := by
  rw [evaluate_of_plain (by decide) (by decide)]
  exact expression_of_name rfl

/-- An assignment, as it is written in ASCII form. -/
theorem evaluate_assignment_one (scope : Scope) :
    evaluate (Text.escape "x = 1").toList scope =
      (.value (.integer 1), Json.insertField "x" (.integer 1) scope) := by
  rw [evaluate_of_plain (by decide) (by decide)]
  have hone : expression ['1'] scope = (.value (.integer 1), scope) := expression_of_literal rfl
  exact expression_of_assignment rfl hone

/-! ### Wrapped expressions -/

omit [Build] in
theorem isBare_jsonOpen : Text.IsBare Source.jsonOpen.toList := Text.isBare_of_all (by decide)

omit [Build] in
theorem escape_asJson (e : String) :
    (Text.escape (Source.asJson e)).toList =
      Source.jsonOpen.toList ++ ((Text.escape e).toList ++ Source.jsonClose.toList) := by
  have hclose : ∀ c ∈ Source.jsonClose.toList, Text.isAscii c := List.all_eq_true.1 (by decide)
  rw [Text.escape, Text.escape, String.toList_ofList, String.toList_ofList, Source.asJson,
    String.toList_append, String.toList_append, List.append_assoc, isBare_jsonOpen.escapeFrom_between hclose]

/-- What the value of a wrapped expression is: the text of an array with the value in it. -/
def Outcome.boxed : Outcome → Outcome
  | .value v => .value (.string (Engine.boxed v))
  | .error message => .error message
  | .exit => .exit

/-- **A wrapped expression is evaluated as the expression**, and its value is boxed. -/
theorem evaluate_asJson (e : String) (scope : Scope) :
    evaluate (Text.escape (Source.asJson e)).toList scope =
      ((evaluate (Text.escape e).toList scope).1.boxed, (evaluate (Text.escape e).toList scope).2) := by
  have hb := Text.between?_eq_some_iff.2 (escape_asJson e)
  rw [evaluate]
  split
  · next inner hj =>
    rw [hb] at hj
    cases hj
    generalize evaluate (Text.escape e).toList scope = r
    obtain ⟨outcome, scope'⟩ := r
    cases outcome <;> rfl
  · next hnone =>
    rw [hb] at hnone
    cases hnone

end EnginePipe.Engine
