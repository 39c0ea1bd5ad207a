import EnginePipe.Proofs.Json.Grammar.Texts
import EnginePipe.Proofs.Json.Soundness

/-!
# Printed values are of the grammar

A text over several lines differs from a compact one by spaces only, and these stand where the grammar lets
them.  So each printed container is of the grammar where its members are, and no depth is too much: a report
of a value may nest deeper than what is read.

* `isValue_print`: the compact text of a sound value.
* `isValue_arrayLines`, `isValue_objectLines`: containers over several lines.
* `isValue_printLines`: **the text of a sound value over several lines is a text of what it is read as**.
-/

namespace EnginePipe.Json

/-! ### Members on lines -/

theorem isSpaces_lineAt (depth : Nat) : IsSpaces (Value.lineAt depth) := by
  intro c hc
  rcases List.mem_cons.1 hc with rfl | hc
  · decide
  · rw [List.eq_of_mem_replicate hc]
    decide

theorem isSpaces_nil : IsSpaces [] := by
  intro c hc
  cases hc

section

variable {α β : Type} {P : List Char → α → Prop} {print : β → List Char} {result : β → α}

/-- Members with the same spaces before each of them, and others behind the last. -/
theorem isSeparated_separated {before after : List Char} (hbefore : IsSpaces before) (hafter : IsSpaces after)
    {bs : List β} (hn : bs ≠ []) (h : ∀ b ∈ bs, P (print b) (result b)) :
    IsSeparated (IsPadded P) (Value.separated (fun b => before ++ print b) bs ++ after) (bs.map result) := by
  induction bs with
  | nil => exact absurd rfl hn
  | cons b bs ih =>
    have hb : P (print b) (result b) := h b List.mem_cons_self
    cases bs with
    | nil => exact .last ⟨before, print b, after, by rw [Value.separated, List.append_assoc], hbefore, hb, hafter⟩
    | cons next bs =>
      have hpadded : IsPadded P (before ++ print b) (result b) :=
        ⟨before, print b, [], by rw [List.append_nil], hbefore, hb, isSpaces_nil⟩
      have hrest := ih (by simp) fun x hx => h x (List.mem_cons_of_mem b hx)
      rw [Value.separated, List.append_assoc, List.cons_append, List.map_cons]
      exact .cons hpadded hrest

end

namespace Value

/-- A field as it is printed on a line. -/
def printFieldLine (depth : Nat) (field : String × Value) : List Char :=
  printString field.1 ++ ':' :: ' ' :: field.2.printLines depth

theorem printItemLines_eq_separated (depth : Nat) (items : List Value) :
    printItemLines depth items = separated (fun item => lineAt depth ++ item.printLines depth) items := by
  induction items with
  | nil => rw [printItemLines, separated]
  | cons item items ih =>
    cases items with
    | nil => rw [printItemLines, separated]
    | cons next items => rw [printItemLines, separated, ih]

theorem printFieldLines_eq_separated (depth : Nat) (fields : List (String × Value)) :
    printFieldLines depth fields =
      separated (fun field => lineAt depth ++ printFieldLine depth field) fields := by
  induction fields with
  | nil => rw [printFieldLines, separated]
  | cons field fields ih =>
    obtain ⟨key, value⟩ := field
    cases fields with
    | nil => rw [printFieldLines, separated, printFieldLine, List.append_assoc]
    | cons next fields =>
      rw [printFieldLines, separated, ih, printFieldLine]
      simp only [List.append_assoc, List.cons_append]

end Value

/-! ### Containers -/

theorem isString_printString (s : String) : IsString (printString s) s := by
  obtain ⟨text, htext, hs⟩ := stringBody_sound (stringBody_printed s [])
  rw [List.append_nil] at htext
  rw [printString, htext]
  exact hs

theorem isField_printFieldLine {P : List Char → Value → Prop} {depth : Nat} {field : String × Value} {v : Value}
    (h : P (field.2.printLines depth) v) : IsField P (Value.printFieldLine depth field) (field.1, v) := by
  refine ⟨printString field.1, [], [' '], field.2.printLines depth, rfl, isString_printString field.1,
    isSpaces_nil, ?_, h⟩
  intro c hc
  rw [List.mem_singleton.1 hc]
  decide

/-- An array is of the grammar where its items are. -/
theorem isValue_arrayLines {n depth : Nat} {items : List Value} {result : Value → Value}
    (h : ∀ item ∈ items, IsValue n (item.printLines (depth + 1)) (result item)) :
    IsValue (n + 1) ((Value.array items).printLines depth) (.array (items.map result)) := by
  refine Or.inr (Or.inl ?_)
  cases items with
  | nil => exact ⟨[], [], by rw [Value.printLines]; rfl, .empty isSpaces_nil, rfl⟩
  | cons item items =>
    have hseparated := isSeparated_separated (isSpaces_lineAt (depth + 1)) (isSpaces_lineAt depth)
      (List.cons_ne_nil item items) h
    rw [← Value.printItemLines_eq_separated] at hseparated
    exact ⟨_, _, by rw [Value.printLines], .members hseparated, rfl⟩

/-- So is an object, whichever order its fields stand in. -/
theorem isValue_objectLines {n depth : Nat} {fields : List (String × Value)} {result : String × Value → Value}
    (h : ∀ field ∈ fields, IsValue n (field.2.printLines (depth + 1)) (result field)) :
    IsValue (n + 1) ((Value.object fields).printLines depth)
      (.object (fieldsOf (fields.map fun field => (field.1, result field)))) := by
  refine Or.inr (Or.inr ?_)
  cases fields with
  | nil => exact ⟨[], [], by rw [Value.printLines]; rfl, .empty isSpaces_nil, rfl⟩
  | cons field fields =>
    have hfields : ∀ f ∈ field :: fields, IsField (IsValue n) (Value.printFieldLine (depth + 1) f)
        (f.1, result f) := fun f hf => isField_printFieldLine (h f hf)
    have hseparated := isSeparated_separated (isSpaces_lineAt (depth + 1)) (isSpaces_lineAt depth)
      (List.cons_ne_nil field fields) hfields
    rw [← Value.printFieldLines_eq_separated] at hseparated
    exact ⟨_, _, by rw [Value.printLines], .members hseparated, rfl⟩

/-! ### Values -/

/-- The compact text of a sound value is one of what it is read as. -/
theorem isValue_print {n : Nat} {v : Value} (h : v.Sound n) : IsValue n v.print v.reread := by
  obtain ⟨before, text, htext, hbefore, hvalue⟩ := value_sound n (value_print_of_sound h endsNumber_nil)
  obtain ⟨c, cs, hprint, hspace, _⟩ := v.head_print
  rw [List.append_nil, List.append_nil] at htext
  cases before with
  | nil =>
    rw [List.nil_append] at htext
    rwa [htext]
  | cons d before =>
    -- The text would begin with a space, which no printed value does.
    rw [hprint, List.cons_append, List.cons.injEq] at htext
    have hd : isSpace c := htext.1 ▸ hbefore d List.mem_cons_self
    rw [hspace] at hd
    cases hd

namespace Value

theorem printLines_of_isScalar {v : Value} (h : v.isScalar) (depth : Nat) : v.printLines depth = v.print := by
  cases v with
  | array items => cases h
  | object fields => cases h
  | _ => rw [printLines] <;> simp

end Value

/-- **The text of a sound value over several lines is a text of what it is read as.** -/
theorem isValue_printLines {n : Nat} {v : Value} (h : v.Sound n) (depth : Nat) :
    IsValue n (v.printLines depth) v.reread := by
  induction v using Value.inductionOn generalizing n depth with
  | array items ih =>
    cases n with
    | zero => exact absurd h.nesting_le (Nat.not_succ_le_zero _)
    | succ n =>
      rw [Value.reread, Value.rereadItems_eq_map]
      exact isValue_arrayLines fun item hi => ih item hi (h.items item hi) (depth + 1)
  | object fields ih =>
    cases n with
    | zero => exact absurd h.nesting_le (Nat.not_succ_le_zero _)
    | succ n =>
      rw [Value.reread, Value.rereadFields_eq_map]
      exact isValue_objectLines fun field hf => ih field hf (h.fields field hf) (depth + 1)
  | _ =>
    rw [Value.printLines_of_isScalar rfl]
    exact isValue_print h

/-- A printed value with the end of its last line. -/
theorem isText_pretty_newline {n : Nat} {v w : Value} (h : IsValue n (v.printLines 0) w) :
    IsText (v.pretty ++ "\n") w := by
  refine ⟨n, [], v.printLines 0, ['\n'], ?_, isSpaces_nil, h, ?_⟩
  · rw [String.toList_append, Value.pretty, String.toList_ofList]
    rfl
  · intro c hc
    rw [List.mem_singleton.1 hc]
    decide

/-- An object of sound values is printed as one text, whichever order its fields stand in. -/
theorem isText_object {n : Nat} {fields : List (String × Value)} (h : ∀ field ∈ fields, field.2.Sound n) :
    IsText ((Value.object fields).pretty ++ "\n")
      (.object (fieldsOf (fields.map fun field => (field.1, field.2.reread)))) :=
  isText_pretty_newline (isValue_objectLines fun field hf => isValue_printLines (h field hf) 1)

end EnginePipe.Json
