import EnginePipe.Proofs.Bridge.Refinement
import EnginePipe.Proofs.Json.Escaping

/-!
# Arguments of calls

The arguments of a call stand as JSON text in an expression, which the engine reads in its ASCII form.  Escaping
keeps the meaning of JSON, and an engine that is called to give its first argument back reads the text as it was
printed.  So an argument comes back as it went in, whatever characters are in it.

The engine counts brackets before it looks at a call, and it counts those in strings too.

* `Engine.evaluate_echoing`: what the engine makes of the call.
* `Engine.echoOutcome_escape`: the arguments are read as they were printed.
* `Stage.call_echo`: **arguments arrive intact**.
-/

namespace EnginePipe

open Json (Value)

/-- Whether a text has as many opening round brackets as closing ones. -/
def Text.IsBalanced (cs : List Char) : Prop := cs.count '(' = cs.count ')'

instance (cs : List Char) : Decidable (Text.IsBalanced cs) := inferInstanceAs (Decidable (_ = _))

/-- Escaping leaves the brackets. -/
theorem Text.isBalanced_escape {s : String} : IsBalanced (escape s).toList ↔ IsBalanced s.toList := by
  have hopen : (escapeFrom false s.toList).count '(' = s.toList.count '(' :=
    count_escapeFrom (by decide) (by decide) (by decide) (by decide) false s.toList
  have hclose : (escapeFrom false s.toList).count ')' = s.toList.count ')' :=
    count_escapeFrom (by decide) (by decide) (by decide) (by decide) false s.toList
  rw [IsBalanced, IsBalanced, escape, String.toList_ofList, hopen, hclose]

namespace Engine

/-! ### The expression -/

/-- The call that gives back the first of its arguments. -/
def echoing (arguments : List Char) : List Char := echoCall.toList ++ (arguments ++ [')'])

theorem toList_applied_echo (arguments : List Value) :
    (Source.applied "echo" arguments).toList = echoing (Value.array arguments).compact.toList := by
  have hcall : "echo" ++ Source.applyOpen = echoCall := by decide
  rw [Source.applied, hcall, String.toList_append, String.toList_append, List.append_assoc]
  rfl

theorem isBare_echoCall : Text.IsBare echoCall.toList := Text.isBare_of_all (by decide)

theorem escape_applied_echo (arguments : List Value) :
    (Text.escape (Source.applied "echo" arguments)).toList =
      echoing (Text.escape (Value.array arguments).compact).toList := by
  have hclose : ∀ c ∈ [')'], Text.isAscii c := List.all_eq_true.1 (by decide)
  rw [Text.escape, Text.escape, String.toList_ofList, String.toList_ofList, toList_applied_echo, echoing, echoing,
    isBare_echoCall.escapeFrom_between hclose]

section

variable (cs : List Char)

/-- A call begins with a letter and ends with a bracket. -/
theorem echoing_eq : echoing cs = 'e' :: ("cho.apply(this, ".toList ++ cs ++ [')']) := by
  rw [List.append_assoc]
  rfl

theorem trim_echoing : Text.trim (echoing cs) = echoing cs := by
  have h := Text.trim_around (List.forall_mem_nil _) (List.forall_mem_nil _) (by decide : ¬Text.isBlank 'e')
    (by decide : ¬Text.isBlank ')') ("cho.apply(this, ".toList ++ cs)
  rwa [List.nil_append, List.append_nil, ← echoing_eq] at h

theorem between?_echoing {start : List Char} (h : start.head? ≠ some 'e') (hne : start ≠ []) (ending : List Char) :
    Text.between? start ending (echoing cs) = none := by
  refine Option.eq_none_iff_forall_ne_some.2 fun rest hrest => h ?_
  have htext := Text.between?_eq_some_iff.1 hrest
  rw [echoing_eq] at htext
  cases start with
  | nil => exact absurd rfl hne
  | cons c start => exact congrArg some (List.cons.inj htext).1.symm

theorem isBalanced_echoing : Text.IsBalanced (echoing cs) ↔ Text.IsBalanced cs := by
  have hopen : echoCall.toList.count '(' = 1 ∧ [')'].count '(' = 0 := by decide
  have hclose : echoCall.toList.count ')' = 0 ∧ [')'].count ')' = 1 := by decide
  simp only [Text.IsBalanced, echoing, List.count_append, hopen, hclose]
  omega

/-- Which form a call is. -/
theorem form_of_echoing : Form.of (echoing cs) = if Text.IsBalanced cs then .echo cs else .unbalanced := by
  have hexit : echoing cs ≠ exitWord.toList := by
    rw [echoing_eq]
    intro h
    exact absurd (List.cons.inj h).1 (by decide)
  have hhead : (echoing cs).head? = some 'e' := by rw [echoing_eq]; rfl
  have hnonempty : (echoing cs).isEmpty = false := by rw [echoing_eq]; rfl
  have hthrow : Text.stripPrefix? throwWord.toList (echoing cs) = none := by rw [echoing_eq]; rfl
  have hecho : Text.between? echoCall.toList [')'] (echoing cs) = some cs := Text.between?_eq_some_iff.2 rfl
  have hcount : (echoing cs).count '(' ≠ (echoing cs).count ')' ↔ ¬Text.IsBalanced cs :=
    not_congr (isBalanced_echoing cs)
  simp only [Form.of, if_neg hexit, hnonempty, hhead, hthrow, hecho, hcount]
  by_cases hb : Text.IsBalanced cs <;> simp [hb]

end

/-! ### The outcome -/

/-- What the engine makes of a call. -/
theorem evaluate_echoing [Build] (cs : List Char) (scope : Scope) :
    evaluate (echoing cs) scope =
      (if Text.IsBalanced cs then echoOutcome cs else .error unbalancedMessage, scope) := by
  have hform := form_of_echoing cs
  rw [evaluate_of_plain (between?_echoing cs (by decide) (by decide) _)
    (between?_echoing cs (by decide) (by decide) _), trim_echoing]
  by_cases hb : Text.IsBalanced cs
  · rw [if_pos hb] at hform ⊢
    exact expression_of_echo hform
  · rw [if_neg hb] at hform ⊢
    exact expression_of_unbalanced hform

/-- **The arguments are read as they were printed.** -/
theorem echoOutcome_escape [Build] {arguments : List Value} (hi : (Value.array arguments).Integral)
    (hs : (Value.array arguments).Sound Json.maxNesting) :
    echoOutcome (Text.escape (Value.array arguments).compact).toList = .value (arguments.headD .null) := by
  have hread := Json.read?_escape (Json.read_compact hs)
  rw [Value.reread_of_integral hi hs.wellFormed] at hread
  rw [echoOutcome, String.ofList_toList, Json.readArray?, hread]

/-- The outcome of a call, as it is written in ASCII form. -/
theorem evaluate_applied_echo [Build] {arguments : List Value} (hi : (Value.array arguments).Integral)
    (hs : (Value.array arguments).Sound Json.maxNesting) (scope : Scope) :
    evaluate (Text.escape (Source.applied "echo" arguments)).toList scope =
      (if Text.IsBalanced (Value.array arguments).compact.toList then .value (arguments.headD .null)
        else .error unbalancedMessage, scope) := by
  rw [escape_applied_echo, evaluate_echoing, echoOutcome_escape hi hs]
  simp only [Text.isBalanced_escape]

end Engine

/-! ### The call -/

theorem Source.trimmed_applied_echo (arguments : List Value) :
    trimmed (applied "echo" arguments) = applied "echo" arguments := by
  rw [trimmed, Engine.toList_applied_echo, Engine.trim_echoing, Engine.echoing_eq, ← List.cons_append,
    Text.dropWhileEnd_concat_of_neg _ (by decide), List.cons_append, ← Engine.echoing_eq,
    ← Engine.toList_applied_echo, String.ofList_toList]

theorem Source.not_isBlank_applied_echo (arguments : List Value) : ¬isBlank (applied "echo" arguments) := by
  rw [isBlank, Engine.toList_applied_echo, Engine.trim_echoing, Engine.echoing_eq]
  exact Bool.false_ne_true

namespace Bridge.Stage

open Launch (Station World)

variable {ω : Type} {d : Descriptor}

/-- **Arguments arrive intact.**  In an open context of a living engine a call gives its first argument back, or
null without arguments, if the text of the arguments has as many opening round brackets as closing ones.  If it
has not, the engine takes the call for a broken source text. -/
theorem call_echo [Build] (hd : d.framing.IsSafe) (host : ω) (first : ContextId) (ops : List Op) {k : Nat}
    {c : Context PipeSession} {session : PipeSession}
    (hc : (reached d host first ops).contexts[k]? = some c) (hs : c.session = some session)
    (ha : (reached d host first ops).world.pool.isAlive session.handle.process) {arguments : List Value}
    (hargs : ∀ v ∈ arguments, v.WellFormed ∧ v.Integral ∧ v.nesting ≤ 126) :
    (Text.IsBalanced (Value.array arguments).compact.toList →
      (c.call "echo" arguments (reached d host first ops).world).1 = .ok (arguments.headD .null)) ∧
    (¬Text.IsBalanced (Value.array arguments).compact.toList →
      (c.call "echo" arguments (reached d host first ops).world).1 =
        .error (if Response.marks d.syntaxMarker Engine.unbalancedMessage then .syntaxError Engine.unbalancedMessage
          else .programError Engine.unbalancedMessage)) := by
  have hintegral : (Value.array arguments).Integral := Value.itemsIntegral_iff.2 fun v hv => (hargs v hv).2.1
  have hsound : (Value.array arguments).Sound Json.maxNesting := .array fun v hv =>
    .of_integral (hargs v hv).1 (hargs v hv).2.1 (hargs v hv).2.2
  have hsource : ¬Source.isBlank (Source.trimmed (Source.applied "echo" arguments)) := by
    rw [Source.trimmed_applied_echo]
    exact Source.not_isBlank_applied_echo arguments
  obtain ⟨before, after, -, -, hanswered⟩ := exists_answered hd host first ops hc hs ha hsource
  rw [Source.trimmed_applied_echo] at hanswered
  have houtcome : (before.outcome c.id (Source.applied "echo" arguments)).1 = _ :=
    congrArg Prod.fst (Engine.evaluate_applied_echo hintegral hsound _)
  constructor
  · intro hb
    rw [if_pos hb] at houtcome
    have hfirst : (arguments.headD .null).Integral := by
      cases arguments with
      | nil => trivial
      | cons v rest => exact (hargs v List.mem_cons_self).2.1
    obtain ⟨hresult, hreread⟩ := hanswered.value _ houtcome
    exact hresult.trans (congrArg Except.ok (hreread hfirst))
  · intro hb
    rw [if_neg hb] at houtcome
    exact hanswered.error _ houtcome

attribute [local instance] Build.plain in
/-- Brackets, backslashes and characters of all widths, and a bracket that is closed too often. -/
theorem call_echo_after_assignment :
    (firstContext.call "echo" [.object [("(é", .string "\\\\u\n😀\"\\€)")], .integer 1]
      (reached sharedToy () 1 [.compile "x = 1"]).world).1 = .ok (.object [("(é", .string "\\\\u\n😀\"\\€)")]) ∧
    (firstContext.call "echo" [.string ")"] (reached sharedToy () 1 [.compile "x = 1"]).world).1 =
      .error (.syntaxError "SyntaxError: Unexpected token )") := by
  obtain ⟨hcontext, halive⟩ := open_after_assignment
  constructor
  · refine (call_echo isSafe_sharedToy () 1 [.compile "x = 1"] hcontext rfl halive ?_).1 (by decide)
    simp [Value.WellFormed, Value.FieldsWellFormed, Value.Integral, Value.FieldsIntegral, Value.nesting,
      Value.fieldsNesting, Json.minInteger, Json.maxInteger]
  · refine (call_echo isSafe_sharedToy () 1 [.compile "x = 1"] hcontext rfl halive ?_).2 (by decide)
    simp [Value.WellFormed, Value.Integral, Value.nesting]

end Bridge.Stage

end EnginePipe
