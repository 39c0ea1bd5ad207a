import EnginePipe.Proofs.Engine.Scopes
import EnginePipe.Proofs.Text.Parts

/-!
# What a source text assigns

A source text is taken apart at its wrappers, at equals signs and at plus signs.  One part after the other is
evaluated in the scope that the parts before it have left, and what they have assigned stays even if the whole
fails in the end.  But a part is a part of the text as it was written, so whatever is assigned on the way stands
in the text, in front of an equals sign.

* `Assigns.of_part`: what is assigned in a part is assigned in the whole.
* `changes_expression`, `changes_evaluate`: **evaluation changes nothing but what the text assigns**, and takes
  nothing away.
* `mayExit_evaluate`: the engine is ended by the exit word, and where sums are checked by a sum.
* `Form.of_variable`: names are looked up, but for a few words.
* `Form.of_assigning`: what is read where a name stands in front of the first equals sign.
* `lookup_of_evaluate_assigning`: **who is assigned a value has it afterwards**.
* `changes_and_holds`: what evaluation may change, and that an assignment holds.
-/

namespace EnginePipe.Engine

open Json (Value)

/-- A text **assigns** a name that stands in it in front of an equals sign, with nothing but blanks between. -/
def Assigns (cs : List Char) (name : String) : Prop :=
  isName name.toList ∧ ∃ blanks, (∀ c ∈ blanks, Text.isBlank c) ∧ name.toList ++ (blanks ++ ['=']) <:+: cs

theorem Assigns.of_part {part cs : List Char} {name : String} (h : Assigns part name) (hpart : part <:+: cs) :
    Assigns cs name := by
  obtain ⟨hname, blanks, hblanks, hin⟩ := h
  exact ⟨hname, blanks, hblanks, hin.trans hpart⟩

/-! ### Changes -/

/-- How evaluating a text may change a scope. -/
structure Changes (cs : List Char) (before after : Scope) : Prop where
  /-- No name loses its value. -/
  kept : ∀ name, (before.lookup name).isSome → (after.lookup name).isSome
  /-- A name with another value is one that the text assigns. -/
  assigned : ∀ name, after.lookup name ≠ before.lookup name → Assigns cs name

namespace Changes

variable {part cs : List Char} {s s' s'' : Scope}

theorem refl (cs : List Char) (s : Scope) : Changes cs s s :=
  ⟨fun _ h => h, fun _ h => absurd rfl h⟩

theorem trans (h : Changes cs s s') (h' : Changes cs s' s'') : Changes cs s s'' where
  kept name hbefore := h'.kept name (h.kept name hbefore)
  assigned name hne := by
    by_cases hfirst : s'.lookup name = s.lookup name
    · exact h'.assigned name (hfirst ▸ hne)
    · exact h.assigned name hfirst

theorem of_part (h : Changes part s s') (hpart : part <:+: cs) : Changes cs s s' :=
  ⟨h.kept, fun name hne => (h.assigned name hne).of_part hpart⟩

theorem insertField {name : String} (hname : Assigns cs name) (v : Value) (s : Scope) :
    Changes cs s (Json.insertField name v s) where
  kept other hbefore := by
    by_cases ho : other = name
    · rw [ho, Json.lookup_insertField, Option.isSome_some]
    · rwa [Json.lookup_insertField_of_ne ho]
  assigned other hne := by
    by_cases ho : other = name
    · rwa [ho]
    · exact absurd (Json.lookup_insertField_of_ne ho v s) hne

end Changes

/-! ### Forms -/

theorem exists_of_assignment? {cs name rhs : List Char} (h : assignment? cs = some (name, rhs)) :
    ∃ written right, cs = written ++ '=' :: right ∧ Text.trim written = name ∧ Text.trim right = rhs ∧
      isName name := by
  have hcs := List.takeWhile_append_dropWhile (p := fun c => decide (c ≠ '=')) (l := cs)
  unfold assignment? at h
  dsimp only at h
  split at h
  · cases h
  · next c right hright =>
    have hc : c = '=' := by
      have hhead := List.head_dropWhile_not (fun c => decide (c ≠ '=')) (by rw [hright]; exact List.cons_ne_nil c right)
      simpa only [hright, List.head_cons, decide_eq_false_iff_not, not_not] using hhead
    split at h
    · next hname =>
      cases h
      rw [hright, hc] at hcs
      exact ⟨_, right, hcs.symm, rfl, rfl, hname⟩
    · cases h

theorem assignment?_append {written : List Char} (hwritten : '=' ∉ written) (hname : isName (Text.trim written))
    (right : List Char) :
    assignment? (written ++ '=' :: right) = some (Text.trim written, Text.trim right) := by
  have hall : ∀ c ∈ written, decide (c ≠ '=') := fun c hc => decide_eq_true fun heq => hwritten (heq ▸ hc)
  unfold assignment?
  rw [List.takeWhile_append_of_pos hall, List.dropWhile_append_of_pos hall]
  simp [hname]

/-- The name of an assignment is assigned, and its right-hand side is a part of the text. -/
theorem assigns_of_assignment? {cs name rhs : List Char} (h : assignment? cs = some (name, rhs)) :
    Assigns cs (String.ofList name) ∧ rhs <:+: cs := by
  obtain ⟨written, right, rfl, rfl, rfl, hname⟩ := exists_of_assignment? h
  obtain ⟨before, blanks, -, hblanks, hwritten⟩ := Text.exists_trim written
  rw [Assigns, String.toList_ofList]
  refine ⟨⟨hname, blanks, hblanks, before, right, ?_⟩, ?_⟩
  · conv_rhs => rw [hwritten]
    simp
  · exact (Text.infix_trim right).trans ⟨written ++ ['='], [], by simp⟩

theorem throwOutcome_ne_value (thrown : List Char) (v : Value) : throwOutcome thrown ≠ .value v := by
  unfold throwOutcome
  split <;> simp

theorem infix_of_mem_terms {cs term : List Char} (h : term ∈ terms cs) : term <:+: cs := by
  obtain ⟨piece, hmem, rfl⟩ := List.mem_map.1 h
  exact (Text.infix_trim piece).trans (Text.infix_of_mem_splitWhere hmem)

/-! ### Evaluation -/

/-- Adding terms up changes what the terms change, also where it stops at one of them. -/
theorem changes_addTerms [Build] {cs : List Char} {ts : List (List Char)}
    {eval : (t : List Char) → t ∈ ts → Scope → Outcome × Scope}
    (h : ∀ t ht scope, Changes cs scope (eval t ht scope).2) (total : Int) (scope : Scope) :
    Changes cs scope (addTerms ts eval total scope).2 := by
  induction ts generalizing total scope with
  | nil => exact .refl cs scope
  | cons t ts ih =>
    have hfirst := h t (.head ts) scope
    rw [addTerms]
    split
    · next n scope' he =>
      rw [he] at hfirst
      split
      · split
        · exact hfirst.trans (ih (fun u hu => h u (.tail t hu)) _ _)
        · exact hfirst
      · exact hfirst
    · next he =>
      rw [he] at hfirst
      exact hfirst
    · next he =>
      rw [he] at hfirst
      exact hfirst

theorem changes_expression [Build] (cs : List Char) (scope : Scope) : Changes cs scope (expression cs scope).2 := by
  -- Only assignments and sums evaluate anything, and what they evaluate are parts of the text.
  fun_induction expression cs scope with
  | case6 cs scope name rhs hf v scope' he ih =>
    obtain ⟨hassigns, hrhs⟩ := assigns_of_assignment? (Form.fits hf)
    rw [he] at ih
    exact (ih.of_part hrhs).trans (.insertField hassigns v scope')
  | case7 cs scope name rhs hf outcome scope' _ he ih =>
    obtain ⟨-, hrhs⟩ := assigns_of_assignment? (Form.fits hf)
    rw [he] at ih
    exact ih.of_part hrhs
  | case8 cs scope ts hf ih =>
    obtain ⟨-, rfl⟩ := Form.fits hf
    exact changes_addTerms (fun t ht scope' => (ih t ht scope').of_part (infix_of_mem_terms ht)) 0 scope
  | _ => exact .refl _ _

/-- **Evaluation changes nothing but what the text assigns**, whatever it comes to. -/
theorem changes_evaluate [Build] (cs : List Char) (scope : Scope) : Changes cs scope (evaluate cs scope).2 := by
  fun_induction evaluate cs scope with
  | case1 cs inner hj v scope' he ih =>
    rw [he] at ih
    exact ih.of_part (Text.infix_of_between? hj)
  | case2 cs inner hj outcome scope' _ he ih =>
    rw [he] at ih
    exact ih.of_part (Text.infix_of_between? hj)
  | case3 cs => exact .refl cs scope
  | case4 cs _ body hf _ returned hr ih =>
    have hbody := (Text.infix_trim body).trans (Text.infix_of_between? hf)
    exact ih.of_part ((Text.infix_of_stripPrefix? hr).trans hbody)
  | case5 cs _ body hf _ _ v scope' he ih =>
    rw [he] at ih
    exact ih.of_part ((Text.infix_trim body).trans (Text.infix_of_between? hf))
  | case6 cs _ body hf _ _ outcome scope' _ he ih =>
    rw [he] at ih
    exact ih.of_part ((Text.infix_trim body).trans (Text.infix_of_between? hf))
  | case7 cs => exact (changes_expression (Text.trim cs) scope).of_part (Text.infix_trim cs)

/-- A sum that fails at its last term; what stands in front of it is assigned. -/
example [Build] : evaluate "1 + y = 2 + z".toList [] =
    (.error "ReferenceError: z is not defined", [("y", .integer 2)]) := by
  have hone : expression ['1'] [] = (.value (.integer 1), []) := expression_of_literal rfl
  have htwo : expression ['2'] [] = (.value (.integer 2), []) := expression_of_literal rfl
  have hy : expression "y = 2".toList [] = (.value (.integer 2), [("y", .integer 2)]) :=
    expression_of_assignment rfl htwo
  have hz : expression ['z'] [("y", .integer 2)] =
      (.error "ReferenceError: z is not defined", [("y", .integer 2)]) :=
    (expression_of_name rfl).trans (by simp [lookupOutcome, List.lookup])
  have hform : Form.of "1 + y = 2 + z".toList = .sum [['1'], "y = 2".toList, ['z']] := rfl
  rw [evaluate_of_plain (by decide) (by decide)]
  refine (expression_of_sum hform).trans ?_
  simp only [addTerms, hone, hy, hz]
  rfl

/-! ### Exits -/

/-- What can end the engine stands in the text: the exit word or, where sums are checked, a plus sign. -/
def MayExit [Build] (cs : List Char) : Prop := exitWord.toList <:+: cs ∨ (Build.checksSums ∧ '+' ∈ cs)

theorem MayExit.of_part [Build] {part cs : List Char} (h : MayExit part) (hpart : part <:+: cs) : MayExit cs :=
  h.imp (fun hword => hword.trans hpart) fun ⟨hchecks, hplus⟩ => ⟨hchecks, hpart.subset hplus⟩

/-- Adding terms up ends the engine where a term does, or where sums are checked. -/
theorem exit_addTerms [Build] {ts : List (List Char)}
    {eval : (t : List Char) → t ∈ ts → Scope → Outcome × Scope} {total : Int} {scope : Scope}
    (h : (addTerms ts eval total scope).1 = .exit) :
    (∃ t ht scope', (eval t ht scope').1 = .exit) ∨ Build.checksSums := by
  induction ts generalizing total scope with
  | nil => cases h
  | cons t ts ih =>
    rw [addTerms] at h
    split at h
    · split at h
      · split at h
        · rcases ih h with ⟨u, hu, scope', hexit⟩ | hchecks
          · exact .inl ⟨u, .tail t hu, scope', hexit⟩
          · exact .inr hchecks
        · next hsum => exact .inr (checksSums_of_addTerm? hsum).1
      · cases h
    · cases h
    · next outcome scope' _ _ he =>
      exact .inl ⟨t, .head ts, scope, (congrArg Prod.fst he).trans h⟩

theorem throwOutcome_ne_exit (thrown : List Char) : throwOutcome thrown ≠ .exit := by
  unfold throwOutcome
  split <;> simp

theorem echoOutcome_ne_exit [Build] (arguments : List Char) : echoOutcome arguments ≠ .exit := by
  unfold echoOutcome
  split <;> simp

theorem lookupOutcome_ne_exit (name : List Char) (scope : Scope) : lookupOutcome name scope ≠ .exit := by
  unfold lookupOutcome
  split <;> simp

theorem mayExit_expression [Build] {cs : List Char} {scope : Scope} (h : (expression cs scope).1 = .exit) :
    MayExit cs := by
  fun_induction expression cs scope with
  | case1 cs scope hf => exact .inl (Form.fits hf ▸ List.infix_refl _)
  | case2 => cases h
  | case3 => cases h
  | case4 cs scope thrown => exact absurd h (throwOutcome_ne_exit thrown)
  | case5 cs scope arguments => exact absurd h (echoOutcome_ne_exit arguments)
  | case6 => cases h
  | case7 cs scope name rhs hf outcome scope' _ he ih =>
    rw [he] at ih
    exact (ih h).of_part (assigns_of_assignment? (Form.fits hf)).2
  | case8 cs scope ts hf ih =>
    obtain ⟨hplus, rfl⟩ := Form.fits hf
    rcases exit_addTerms h with ⟨t, ht, scope', hexit⟩ | hchecks
    · exact (ih t ht scope' hexit).of_part (infix_of_mem_terms ht)
    · exact .inr ⟨hchecks, hplus⟩
  | case9 => cases h
  | case10 cs scope name => exact absurd h (lookupOutcome_ne_exit name scope)
  | case11 => cases h

/-- **Evaluation ends the engine at the exit word**, and where sums are checked at a sum. -/
theorem mayExit_evaluate [Build] {cs : List Char} {scope : Scope} (h : (evaluate cs scope).1 = .exit) :
    MayExit cs := by
  fun_induction evaluate cs scope with
  | case1 => cases h
  | case2 cs inner hj outcome scope' _ he ih =>
    rw [he] at ih
    exact (ih h).of_part (Text.infix_of_between? hj)
  | case3 => cases h
  | case4 cs _ body hf _ returned hr ih =>
    have hbody := (Text.infix_trim body).trans (Text.infix_of_between? hf)
    exact (ih h).of_part ((Text.infix_of_stripPrefix? hr).trans hbody)
  | case5 => cases h
  | case6 cs _ body hf _ _ outcome scope' _ he ih =>
    rw [he] at ih
    exact (ih h).of_part ((Text.infix_trim body).trans (Text.infix_of_between? hf))
  | case7 cs => exact (mayExit_expression h).of_part (Text.infix_trim cs)

/-! ### Names -/

/-- The names that are read as something else than a variable. -/
def reservedNames : List String := ["true", "false", "null", "undefined", exitWord]

theorem isNameChar_eq (c : Char) : isNameChar c =
    ((decide (c.val ≥ 'A'.val ∧ c.val ≤ 'Z'.val) || (decide (c.val ≥ 'a'.val) && decide (c.val ≤ 'z'.val))) ||
      (decide (c.val ≥ '0'.val) && decide (c.val ≤ '9'.val)) || decide (c = '_') || decide (c = '$')) := rfl

theorem toNat_of_isNameChar {c : Char} (h : isNameChar c) : 36 ≤ c.toNat ∧ c.toNat ≤ 122 := by
  have hval : c.val.toNat = c.toNat := rfl
  simp only [isNameChar_eq, Bool.or_eq_true, Bool.and_eq_true, decide_eq_true_eq, ge_iff_le, UInt32.le_iff_toNat_le,
    hval, or_assoc] at h
  rcases h with ⟨hl, hu⟩ | ⟨hl, hu⟩ | ⟨hl, hu⟩ | rfl | rfl
  · exact ⟨Nat.le_trans (by decide) hl, Nat.le_trans hu (by decide)⟩
  · exact ⟨Nat.le_trans (by decide) hl, Nat.le_trans hu (by decide)⟩
  · exact ⟨Nat.le_trans (by decide) hl, Nat.le_trans hu (by decide)⟩
  · decide
  · decide

theorem not_isBlank_of_isNameChar {c : Char} (h : isNameChar c) : ¬ Text.isBlank c := by
  obtain ⟨hl, hu⟩ := toNat_of_isNameChar h
  have hpoints : ∀ n ∈ Text.blankPoints, n < 36 ∨ 122 < n := by decide
  intro hblank
  have := hpoints _ (List.contains_iff_mem.1 hblank)
  omega

section

variable {name : List Char} (hname : isName name)

include hname

theorem isNameChar_of_mem {c : Char} (hc : c ∈ name) : isNameChar c := by
  cases name with
  | nil => cases hc
  | cons d ds =>
    simp only [isName, Bool.and_eq_true, List.all_eq_true] at hname
    rcases List.mem_cons.1 hc with rfl | hc
    · exact hname.1.1
    · exact hname.2 c hc

theorem not_mem_of_isName {c : Char} (hc : isNameChar c = false) : c ∉ name := fun hmem =>
  Bool.false_ne_true (hc.symm.trans (isNameChar_of_mem hname hmem))

theorem trim_of_isName : Text.trim name = name :=
  Text.trim_of_not_blank fun _ hc => not_isBlank_of_isNameChar (isNameChar_of_mem hname hc)

/-- A name does not begin with a text that has other characters in it. -/
theorem stripPrefix?_of_isName {start : List Char} {c : Char} (hc : c ∈ start) (hother : isNameChar c = false) :
    Text.stripPrefix? start name = none := by
  rw [Option.eq_none_iff_forall_ne_some]
  intro rest h
  rw [Text.stripPrefix?_eq_some_iff] at h
  exact not_mem_of_isName hname hother (h ▸ List.mem_append_left rest hc)

theorem between?_of_isName {start : List Char} {c : Char} (hc : c ∈ start) (hother : isNameChar c = false)
    (ending : List Char) : Text.between? start ending name = none := by
  rw [Text.between?, stripPrefix?_of_isName hname hc hother, Option.bind_none]

theorem integer?_of_isName : integer? name = none := by
  cases name with
  | nil => cases hname
  | cons c cs =>
    have hdigit : c.isDigit = false := by
      simp only [isName, Bool.and_eq_true, Bool.not_eq_true'] at hname
      exact hname.1.2
    have hdigits : digits? (c :: cs) = none := by simp [digits?, hdigit]
    unfold integer?
    split
    · next heq =>
      cases heq
      exact absurd List.mem_cons_self (not_mem_of_isName hname (c := '-') (by decide))
    · next heq =>
      cases heq
      exact absurd List.mem_cons_self (not_mem_of_isName hname (c := '+') (by decide))
    · rw [hdigits]
      rfl

theorem quoted?_of_isName : quoted? name = none := by
  cases name with
  | nil => cases hname
  | cons c cs =>
    have hquote : isQuote c = false := by
      rw [isQuote, Bool.or_eq_false_iff, decide_eq_false_iff_not, decide_eq_false_iff_not]
      constructor <;> rintro rfl <;> exact not_mem_of_isName hname (by decide) List.mem_cons_self
    rw [quoted?, hquote]
    rfl

theorem literal?_of_isName (hfree : String.ofList name ∉ reservedNames) : literal? name = none := by
  unfold literal?
  split
  · next h => exact absurd (h ▸ by decide) hfree
  · next h => exact absurd (h ▸ by decide) hfree
  · next h => exact absurd (h ▸ by decide) hfree
  · next h => exact absurd (h ▸ by decide) hfree
  · rw [integer?_of_isName hname, quoted?_of_isName hname]
    rfl

/-- **Names are looked up**, but for the reserved ones. -/
theorem Form.of_variable (hfree : String.ofList name ∉ reservedNames) : Form.of name = .name name := by
  have hexit : name ≠ exitWord.toList := by
    rintro rfl
    rw [String.ofList_toList] at hfree
    exact hfree (by decide)
  have hempty : name.isEmpty = false := by
    cases name with
    | nil => cases hname
    | cons c cs => rfl
  have hhead : name.head? ≠ some ')' := fun h =>
    not_mem_of_isName hname (by decide) (List.mem_of_head? h)
  have hopen : name.count '(' = 0 := List.count_eq_zero_of_not_mem (not_mem_of_isName hname (by decide))
  have hclose : name.count ')' = 0 := List.count_eq_zero_of_not_mem (not_mem_of_isName hname (by decide))
  have hthrow : Text.stripPrefix? throwWord.toList name = none :=
    stripPrefix?_of_isName hname (c := ' ') (by decide) (by decide)
  have hecho : Text.between? echoCall.toList [')'] name = none :=
    between?_of_isName hname (c := '(') (by decide) (by decide) _
  have hassignment : assignment? name = none := by
    rw [Option.eq_none_iff_forall_ne_some]
    rintro ⟨target, rhs⟩ h
    obtain ⟨written, right, hcs, -⟩ := exists_of_assignment? h
    exact not_mem_of_isName hname (c := '=') (by decide) (by simp [hcs])
  have hplus : '+' ∉ name := not_mem_of_isName hname (by decide)
  rw [Form.of, if_neg hexit, hempty]
  simp [hhead, hopen, hclose, hthrow, hecho, hassignment, hplus, literal?_of_isName hname hfree, hname]

end

/-! ### Assignments -/

section

variable {written : List Char} (hname : isName (Text.trim written))

include hname

theorem not_mem_of_isName_trim {c : Char} (hother : isNameChar c = false) (hblank : ¬ Text.isBlank c) :
    c ∉ written := by
  obtain ⟨before, after, hbefore, hafter, hwritten⟩ := Text.exists_trim written
  rw [hwritten, List.mem_append, List.mem_append, not_or, not_or]
  exact ⟨fun h => hblank (hbefore c h), not_mem_of_isName hname hother, fun h => hblank (hafter c h)⟩

/-- Wrappers and calls have a bracket in front of any equals sign. -/
theorem between?_of_assigning {start : List Char} (hopen : '(' ∈ start) (hequals : '=' ∉ start)
    (ending right : List Char) : Text.between? start ending (written ++ '=' :: right) = none := by
  have hbracket : '(' ∉ written := not_mem_of_isName_trim hname (by decide) (by decide)
  rw [Option.eq_none_iff_forall_ne_some]
  intro rest h
  -- What it begins with either goes beyond the equals sign or has its bracket in front of it.
  rcases List.append_eq_append_iff.1 (Text.between?_eq_some_iff.1 h) with ⟨more, rfl, hmore⟩ | ⟨more, rfl, -⟩
  · cases more with
    | nil => exact hbracket (by simpa using hopen)
    | cons c more =>
      obtain ⟨rfl, -⟩ := List.cons_eq_cons.1 hmore
      exact hequals (by simp)
  · exact hbracket (List.mem_append_left more hopen)

/-- What is read where a name stands in front of the first equals sign. -/
theorem Form.of_assigning (right : List Char) :
    Form.of (written ++ '=' :: right) = .unbalanced ∨
      (∃ thrown, Form.of (written ++ '=' :: right) = .throw thrown) ∨
      Form.of (written ++ '=' :: right) = .assignment (Text.trim written) (Text.trim right) := by
  have hexit : written ++ '=' :: right ≠ exitWord.toList := by
    intro h
    have hmem : '=' ∈ exitWord.toList := by simp [← h]
    exact absurd hmem (by decide)
  have hecho : Text.between? echoCall.toList [')'] (written ++ '=' :: right) = none :=
    between?_of_assigning hname (by decide) (by decide) _ _
  have hassignment := assignment?_append (not_mem_of_isName_trim hname (by decide) (by decide)) hname right
  rw [Form.of, if_neg hexit, if_neg (by simp), hecho, hassignment]
  split
  · exact Or.inl rfl
  · split
    · exact Or.inr (Or.inl ⟨_, rfl⟩)
    · exact Or.inr (Or.inr rfl)

variable [Build]

theorem lookup_of_expression_assigning {right : List Char} {scope : Scope} {v : Value}
    (h : (expression (written ++ '=' :: right) scope).1 = .value v) :
    (expression (written ++ '=' :: right) scope).2.lookup (String.ofList (Text.trim written)) = some v := by
  rcases Form.of_assigning hname right with hf | ⟨thrown, hf⟩ | hf
  · rw [expression_of_unbalanced hf] at h
    cases h
  · rw [expression_of_throw hf] at h
    exact absurd h (throwOutcome_ne_value thrown v)
  · rw [expression_eq_of_assignment hf] at h ⊢
    obtain ⟨⟨outcome, scope'⟩, hr⟩ : ∃ r, expression (Text.trim right) scope = r := ⟨_, rfl⟩
    rw [hr] at h ⊢
    cases outcome with
    | value u =>
      cases h
      exact Json.lookup_insertField _ v scope'
    | error message => cases h
    | exit => cases h

theorem evaluate_assigning (right : List Char) (scope : Scope) :
    evaluate (written ++ '=' :: right) scope =
      expression (written.dropWhile Text.isBlank ++ '=' :: Text.dropWhileEnd Text.isBlank right) scope := by
  rw [evaluate_of_plain (between?_of_assigning hname (by decide) (by decide) _ _)
    (between?_of_assigning hname (by decide) (by decide) _ _), Text.trim_append_cons (by decide)]

/-- **Who is assigned a value has it afterwards.** -/
theorem lookup_of_evaluate_assigning {right : List Char} {scope : Scope} {v : Value}
    (h : (evaluate (written ++ '=' :: right) scope).1 = .value v) :
    (evaluate (written ++ '=' :: right) scope).2.lookup (String.ofList (Text.trim written)) = some v := by
  rw [evaluate_assigning hname] at h ⊢
  rw [← Text.trim_dropWhile] at hname ⊢
  exact lookup_of_expression_assigning hname h

end

section

variable [Build]

theorem evaluate_variable {name : List Char} (hname : isName name) (hfree : String.ofList name ∉ reservedNames)
    (scope : Scope) : evaluate name scope = (lookupOutcome name scope, scope) := by
  rw [evaluate_of_plain (between?_of_isName hname (c := '(') (by decide) (by decide) _)
    (between?_of_isName hname (c := '(') (by decide) (by decide) _), trim_of_isName hname]
  exact expression_of_name (Form.of_variable hname hfree)

theorem evaluate_reserved {name : String} (h : name ∈ reservedNames) (scope : Scope) (n : Int) :
    (evaluate name.toList scope).1 ≠ .value (.integer n) := by
  simp only [reservedNames, List.mem_cons, List.not_mem_nil, or_false] at h
  rcases h with rfl | rfl | rfl | rfl | rfl <;> rw [evaluate_of_plain (by decide) (by decide)]
  case inr.inr.inr.inr =>
    rw [expression_of_exit rfl]
    simp
  all_goals
    rw [expression_of_literal rfl]
    simp

theorem evaluate_reserved_assignment {name : String} (h : name ∈ reservedNames) (scope : Scope) :
    (evaluate (name ++ " = " ++ "1").toList scope).1 = .value (.integer 1) := by
  have hone : expression ['1'] scope = (.value (.integer 1), scope) := expression_of_literal rfl
  simp only [reservedNames, List.mem_cons, List.not_mem_nil, or_false] at h
  rcases h with rfl | rfl | rfl | rfl | rfl <;> rw [evaluate_of_plain (by decide) (by decide)]
  all_goals exact congrArg Prod.fst (expression_of_assignment rfl hone)

/-! ### Holding -/

/-- A name **holds** what it is assigned if it can be read back right after any assignment that comes to a value. -/
def Holds (name : String) : Prop :=
  ∀ (right : String) (scope : Scope) (v : Value),
    (evaluate (name ++ " = " ++ right).toList scope).1 = .value v →
      evaluate name.toList (evaluate (name ++ " = " ++ right).toList scope).2 =
        (.value v, (evaluate (name ++ " = " ++ right).toList scope).2)

theorem holds_of_not_mem {name : String} (hname : isName name.toList) (hfree : name ∉ reservedNames) :
    Holds name := by
  intro right scope v h
  have htext : (name ++ " = " ++ right).toList = (name.toList ++ [' ']) ++ '=' :: ' ' :: right.toList := by
    simp [String.toList_append]
  have htrim : Text.trim (name.toList ++ [' ']) = name.toList := by
    rw [Text.trim_append_of_blank (List.forall_mem_singleton.2 (by decide)), trim_of_isName hname]
  rw [htext] at h ⊢
  have hheld := lookup_of_evaluate_assigning (by rwa [htrim]) h
  rw [htrim] at hheld
  rw [evaluate_variable hname (by rwa [String.ofList_toList]), lookupOutcome, hheld]

theorem not_holds_of_mem {name : String} (h : name ∈ reservedNames) : ¬ Holds name := by
  intro hholds
  have hone := evaluate_reserved_assignment h []
  refine evaluate_reserved h (evaluate (name ++ " = " ++ "1").toList []).2 1 ?_
  rw [hholds "1" [] (.integer 1) hone]

/-- **What evaluation may change, and what an assignment does**: whatever a source text comes to, no name loses its
value, and only what the text assigns gets another one; and exactly the names that are not reserved hold what they
are assigned. -/
theorem changes_and_holds :
    (∀ (source : String) (scope : Scope), Changes source.toList scope (evaluate source.toList scope).2) ∧
      ∀ name : String, isName name.toList → (Holds name ↔ name ∉ reservedNames) := by
  refine ⟨fun source scope => changes_evaluate source.toList scope, fun name hname => ?_⟩
  constructor
  · intro hholds hreserved
    exact not_holds_of_mem hreserved hholds
  · intro hfree
    exact holds_of_not_mem hname hfree

end

attribute [local instance] Build.plain in
/-- A sum with an assignment in it, assigned. -/
theorem changes_and_holds_sum :
    isName "a".toList ∧ "a" ∉ reservedNames ∧
      (evaluate ("a" ++ " = " ++ "3 + b = 4").toList []).1 = .value (.integer 7) ∧
      evaluate "a".toList (evaluate ("a" ++ " = " ++ "3 + b = 4").toList []).2 =
        (.value (.integer 7), (evaluate ("a" ++ " = " ++ "3 + b = 4").toList []).2) := by
  have hname : isName "a".toList := by decide
  have hfree : "a" ∉ reservedNames := by decide
  have hvalue : (evaluate ("a" ++ " = " ++ "3 + b = 4").toList []).1 = .value (.integer 7) := by
    have hthree : expression ['3'] [] = (.value (.integer 3), []) := expression_of_literal rfl
    have hfour : expression ['4'] [] = (.value (.integer 4), []) := expression_of_literal rfl
    have hb : expression "b = 4".toList [] = (.value (.integer 4), [("b", .integer 4)]) :=
      expression_of_assignment rfl hfour
    have hsum : expression "3 + b = 4".toList [] = (.value (.integer 7), [("b", .integer 4)]) := by
      have hform : Form.of "3 + b = 4".toList = .sum [['3'], "b = 4".toList] := rfl
      rw [expression_of_sum hform]
      simp only [addTerms, hthree, hb]
      rfl
    rw [evaluate_of_plain (by decide) (by decide)]
    exact congrArg Prod.fst (expression_of_assignment rfl hsum)
  exact ⟨hname, hfree, hvalue, ((changes_and_holds.2 "a" hname).2 hfree) "3 + b = 4" [] (.integer 7) hvalue⟩

end EnginePipe.Engine
