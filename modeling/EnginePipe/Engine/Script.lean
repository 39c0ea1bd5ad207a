import EnginePipe.Build
import EnginePipe.Source
import EnginePipe.Text.Affix
import EnginePipe.Text.Escape

/-!
# A small script language

What the toy engine understands of the language of a script engine: literals, sums of integers, names
that can be assigned and looked up, and the few forms that callers wrap their source texts in.

A source text is first read as one of a few forms (`Form.of`), which may hold shorter source texts;
then the form is evaluated in a scope.  Evaluation may change the scope and fail all the same.  What
becomes of a sum that no machine integer holds is left to the build.

* `Form.fits_of`: what is known of a text by its form.
* `Form.of_assignment_length`, `Form.of_sum_length`: inner source texts are shorter.
* `addTerm?`: the sum of two machine integers; the plain one where a machine integer holds it.
* `expression`, `evaluate`: the outcome of a source text, and the scope it leaves.
-/

namespace EnginePipe.Engine

open Text (trim stripPrefix? between? splitWhere)

/-- The values of the names of one context, in the order of the names. -/
abbrev Scope : Type := List (String × Json.Value)

/-- What evaluating a source text comes to. -/
inductive Outcome where
  | value (v : Json.Value)
  /-- The source text failed; what is said about it. -/
  | error (message : String)
  /-- The engine ends without an answer. -/
  | exit
deriving Repr, BEq

/-! ### Words -/

/-- The source text that ends the engine. -/
def exitWord : String := "__exit__"

/-- The start of a source text that fails. -/
def throwWord : String := "throw "

/-- The start of a call that gives back its first argument. -/
def echoCall : String := "echo.apply(this, "

/-- Whether a character can be part of a name. -/
def isNameChar (c : Char) : Bool := c.isAlphanum || c = '_' || c = '$'

/-- Whether a text is a name. -/
def isName : List Char → Bool
  | [] => false
  | c :: cs => isNameChar c && !c.isDigit && cs.all isNameChar

/-- The least integer that can be a term of a sum. -/
def minTerm : Int := -9223372036854775808

/-- The greatest integer that can be a term of a sum. -/
def maxTerm : Int := 9223372036854775807

/-- Whether an integer can be a term of a sum. -/
def isTerm (n : Int) : Bool := minTerm ≤ n && n ≤ maxTerm

theorem isTerm_iff {n : Int} : isTerm n ↔ minTerm ≤ n ∧ n ≤ maxTerm := by
  simp [isTerm]

/-- The number that decimal digits write. -/
def natOfDigits (digits : List Char) : Nat :=
  digits.foldl (fun n c => 10 * n + (c.toNat - '0'.toNat)) 0

/-- The natural number that a text writes. -/
def digits? (cs : List Char) : Option Nat :=
  if !cs.isEmpty && cs.all Char.isDigit then some (natOfDigits cs) else none

/-- The integer that a text writes, with or without a sign. -/
def integer? (cs : List Char) : Option Int :=
  let n := match cs with
    | '-' :: ds => (digits? ds).map fun n => -(n : Int)
    | '+' :: ds => (digits? ds).map fun n => (n : Int)
    | ds => (digits? ds).map fun n => (n : Int)
  n.filter isTerm

/-- The marks that enclose a string. -/
def isQuote (c : Char) : Bool := c = '\'' || c = '"'

/-- The text of a string literal. -/
def quoted? : List Char → Option String
  | [] => none
  | q :: rest =>
    if isQuote q then
      ((Text.stripSuffix? [q] rest).bind Text.unescape).map String.ofList
    else none

/-- The value that a literal writes. -/
def literal? (cs : List Char) : Option Json.Value :=
  match String.ofList cs with
  | "true" => some (.bool true)
  | "false" => some (.bool false)
  | "null" => some .null
  | "undefined" => some .null
  | _ =>
    match integer? cs with
    | some n => some (.integer n)
    | none => (quoted? cs).map .string

/-! ### Forms -/

/-- What a source text without blanks around it is. -/
inductive Form where
  | exit
  | blank
  /-- Its brackets do not match. -/
  | unbalanced
  | throw (thrown : List Char)
  | echo (arguments : List Char)
  | assignment (name rhs : List Char)
  | sum (terms : List (List Char))
  | literal (v : Json.Value)
  | name (n : List Char)
  | unreadable

/-- The name and the right-hand side around the first equals sign, if the first is a name. -/
def assignment? (cs : List Char) : Option (List Char × List Char) :=
  let name := trim (cs.takeWhile (· ≠ '='))
  match cs.dropWhile (· ≠ '=') with
  | [] => none
  | _ :: rhs => if isName name then some (name, trim rhs) else none

/-- The terms between plus signs. -/
def terms (cs : List Char) : List (List Char) := (splitWhere (· = '+') cs).map trim

/-- Reads a source text. -/
def Form.of (cs : List Char) : Form :=
  if cs = exitWord.toList then .exit
  else if cs.isEmpty then .blank
  else if cs.head? = some ')' || cs.count '(' ≠ cs.count ')' then .unbalanced
  else match stripPrefix? throwWord.toList cs with
    | some thrown => .throw (trim thrown)
    | none => match between? echoCall.toList [')'] cs with
      | some arguments => .echo arguments
      | none => match assignment? cs with
        | some (target, rhs) => .assignment target rhs
        | none =>
          if cs.contains '+' && !cs.head?.any isQuote then .sum (terms cs)
          else match literal? cs with
            | some v => .literal v
            | none => if isName cs then .name cs else .unreadable

/-- What is known of a text by the form that it is read as. -/
def Form.Fits (cs : List Char) : Form → Prop
  | exit => cs = exitWord.toList
  | blank => cs = []
  | unbalanced => cs.head? = some ')' ∨ cs.count '(' ≠ cs.count ')'
  | throw thrown => ∃ rest, stripPrefix? throwWord.toList cs = some rest ∧ thrown = trim rest
  | echo arguments => between? echoCall.toList [')'] cs = some arguments
  | assignment target rhs => assignment? cs = some (target, rhs)
  | sum ts => '+' ∈ cs ∧ ts = terms cs
  | literal v => literal? cs = some v
  | name n => isName cs ∧ n = cs
  | unreadable => literal? cs = none ∧ ¬ isName cs

theorem Form.fits_of (cs : List Char) : (Form.of cs).Fits cs := by
  unfold Form.of
  split
  · next hexit => exact hexit
  split
  · next hempty => exact List.isEmpty_iff.1 hempty
  split
  · next hbrackets =>
    rw [Bool.or_eq_true_iff, decide_eq_true_iff, decide_eq_true_iff] at hbrackets
    exact hbrackets
  split
  · next rest hthrow => exact ⟨rest, hthrow, rfl⟩
  split
  · next hecho => exact hecho
  split
  · next hassignment => exact hassignment
  split
  · next hplus => exact ⟨List.contains_iff_mem.1 (Bool.and_eq_true_iff.1 hplus).1, rfl⟩
  split
  · next hliteral => exact hliteral
  · next hliteral =>
    split
    · next hname => exact ⟨hname, rfl⟩
    · next hname => exact ⟨hliteral, hname⟩

theorem Form.fits {cs : List Char} {form : Form} (h : Form.of cs = form) : form.Fits cs :=
  h ▸ Form.fits_of cs

theorem length_of_assignment? {cs name rhs : List Char}
    (h : assignment? cs = some (name, rhs)) : rhs.length < cs.length := by
  simp only [assignment?] at h
  have hd := Text.length_dropWhile_le (fun c => decide (c ≠ '=')) cs
  split at h
  · simp at h
  · next c rest hr =>
    rw [hr, List.length_cons] at hd
    split at h
    · simp only [Option.some.injEq, Prod.mk.injEq] at h
      rw [← h.2]
      exact Nat.lt_of_le_of_lt (Text.length_trim_le rest) hd
    · simp at h

theorem length_of_mem_terms {cs term : List Char} (hp : '+' ∈ cs) (h : term ∈ terms cs) :
    term.length < cs.length := by
  obtain ⟨piece, hm, rfl⟩ := List.mem_map.1 h
  exact Nat.lt_of_le_of_lt (Text.length_trim_le piece)
    (Text.length_lt_of_mem_splitWhere hp (by decide) hm)

theorem Form.of_assignment_length {cs name rhs : List Char}
    (h : Form.of cs = .assignment name rhs) : rhs.length < cs.length :=
  length_of_assignment? (Form.fits h)

theorem Form.of_sum_length {cs : List Char} {ts : List (List Char)}
    (h : Form.of cs = .sum ts) : ∀ t ∈ ts, t.length < cs.length := by
  obtain ⟨hplus, rfl⟩ := Form.fits h
  exact fun t ht => length_of_mem_terms hplus ht

/-! ### Evaluation -/

/-- What is said of a source text whose brackets do not match. -/
def unbalancedMessage : String := "SyntaxError: Unexpected token )"

/-- What is said of a value that cannot be added. -/
def cannotAdd (v : Json.Value) : String := "TypeError: cannot add " ++ v.compact

/-- The outcome of throwing what `thrown` writes. -/
def throwOutcome (thrown : List Char) : Outcome :=
  match literal? thrown with
  | some (.string message) => .error message
  | some v => .error v.compact
  | none => .error (String.ofList thrown)

/-- The outcome of giving back the first of some arguments. -/
def echoOutcome [Build] (arguments : List Char) : Outcome :=
  match Json.readArray? (String.ofList arguments) with
  | some items => .value (items.headD .null)
  | none => .error ("SyntaxError: " ++ (Json.Fault.ofArray (String.ofList arguments)).message)

/-- The outcome of looking up a name. -/
def lookupOutcome (name : List Char) (scope : Scope) : Outcome :=
  match scope.lookup (String.ofList name) with
  | some v => .value v
  | none => .error ("ReferenceError: " ++ String.ofList name ++ " is not defined")

/-- How many integers can be terms of a sum. -/
def termCount : Nat := 18446744073709551616

/-- The sum of two terms, if there is one.  One that is no term itself is missing where sums are checked,
and wraps around elsewhere. -/
def addTerm? [Build] (total n : Int) : Option Int :=
  if isTerm (total + n) then some (total + n)
  else if Build.checksSums then none
  else some (Int.bmod (total + n) termCount)

theorem isTerm_bmod (n : Int) : isTerm (Int.bmod n termCount) := by
  have hl := Int.le_bmod (x := n) (m := termCount) (by decide)
  have hu := Int.bmod_lt (x := n) (m := termCount) (by decide)
  rw [isTerm_iff]
  simp only [minTerm, maxTerm, termCount] at hl hu ⊢
  omega

section

variable [Build] {total n : Int}

theorem addTerm?_of_isTerm (h : isTerm (total + n)) : addTerm? total n = some (total + n) :=
  if_pos h

theorem addTerm?_of_not_isTerm (h : ¬ isTerm (total + n)) :
    addTerm? total n = if Build.checksSums then none else some (Int.bmod (total + n) termCount) :=
  if_neg h

example : addTerm? maxTerm 1 = if Build.checksSums then none else some minTerm :=
  addTerm?_of_not_isTerm (by decide)

theorem isTerm_of_addTerm? {sum : Int} (h : addTerm? total n = some sum) : isTerm sum := by
  by_cases hterm : isTerm (total + n)
  · rw [addTerm?_of_isTerm hterm] at h
    exact Option.some.inj h ▸ hterm
  · rw [addTerm?_of_not_isTerm hterm] at h
    split at h
    · cases h
    · exact Option.some.inj h ▸ isTerm_bmod (total + n)

theorem checksSums_of_addTerm? (h : addTerm? total n = none) :
    Build.checksSums ∧ ¬ isTerm (total + n) := by
  by_cases hterm : isTerm (total + n)
  · rw [addTerm?_of_isTerm hterm] at h
    cases h
  · rw [addTerm?_of_not_isTerm hterm] at h
    split at h
    · next hchecks => exact ⟨hchecks, hterm⟩
    · cases h

end

/-- Adds up the values of terms, from left to right; stops at the first that is no integer, and ends the
engine at the first that has no sum with what is before it. -/
def addTerms [Build] : (ts : List (List Char)) → ((t : List Char) → t ∈ ts → Scope → Outcome × Scope) →
    Int → Scope → Outcome × Scope
  | [], _, total, scope => (.value (.integer total), scope)
  | t :: ts, eval, total, scope =>
    match eval t (.head ts) scope with
    | (.value (.integer n), scope) =>
      if isTerm n then
        match addTerm? total n with
        | some sum => addTerms ts (fun u h => eval u (.tail t h)) sum scope
        | none => (.exit, scope)
      else (.error (cannotAdd (.integer n)), scope)
    | (.value v, scope) => (.error (cannotAdd v), scope)
    | (outcome, scope) => (outcome, scope)

/-- Evaluates a source text without blanks around it. -/
def expression [Build] (cs : List Char) (scope : Scope) : Outcome × Scope :=
  match _h : Form.of cs with
  | .exit => (.exit, scope)
  | .blank => (.value .null, scope)
  | .unbalanced => (.error unbalancedMessage, scope)
  | .throw thrown => (throwOutcome thrown, scope)
  | .echo arguments => (echoOutcome arguments, scope)
  | .assignment name rhs =>
    match expression rhs scope with
    | (.value v, scope) => (.value v, Json.insertField (String.ofList name) v scope)
    | (outcome, scope) => (outcome, scope)
  | .sum ts => addTerms ts (fun t _ scope => expression t scope) 0 scope
  | .literal v => (.value v, scope)
  | .name n => (lookupOutcome n scope, scope)
  | .unreadable => (.error ("SyntaxError: Unexpected token in " ++ String.ofList cs), scope)
termination_by cs.length
decreasing_by
  · exact Form.of_assignment_length _h
  · exact Form.of_sum_length _h t (by assumption)

/-! ### Wrappers -/

/-- The word that makes a function give a value. -/
def returnWord : String := "return"

theorem jsonOpen_ne_nil : Source.jsonOpen.toList ≠ [] := by simp [Source.jsonOpen]

theorem functionOpen_ne_nil : Source.functionOpen.toList ≠ [] := by simp [Source.functionOpen]

/-- The text of an array with one item. -/
def boxed (v : Json.Value) : String := (Json.Value.array [v]).compact

/-- Evaluates a source text. -/
def evaluate [Build] (cs : List Char) (scope : Scope) : Outcome × Scope :=
  match _hj : between? Source.jsonOpen.toList Source.jsonClose.toList cs with
  | some inner =>
    match evaluate inner scope with
    | (.value v, scope) => (.value (.string (boxed v)), scope)
    | (outcome, scope) => (outcome, scope)
  | none =>
    match _hf : between? Source.functionOpen.toList Source.functionClose.toList cs with
    | some body =>
      if (trim body).isEmpty then (.value .null, scope)
      else
        match _hr : stripPrefix? returnWord.toList (trim body) with
        | some returned => evaluate returned scope
        | none =>
          match evaluate (trim body) scope with
          | (.value _, scope) => (.value .null, scope)
          | (outcome, scope) => (outcome, scope)
    | none => expression (trim cs) scope
termination_by cs.length
decreasing_by
  · exact Text.length_lt_of_between? jsonOpen_ne_nil _hj
  · exact Nat.lt_of_le_of_lt
      (Nat.le_trans (Text.length_le_of_stripPrefix? _hr) (Text.length_trim_le body))
      (Text.length_lt_of_between? functionOpen_ne_nil _hf)
  · exact Nat.lt_of_le_of_lt (Text.length_trim_le body)
      (Text.length_lt_of_between? functionOpen_ne_nil _hf)

end EnginePipe.Engine
