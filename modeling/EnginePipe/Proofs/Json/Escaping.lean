import EnginePipe.Proofs.Json.Grammar.Texts
import EnginePipe.Proofs.Text.Escaping

/-!
# Escaping keeps JSON

A JSON text has characters outside ASCII only inside its strings, and there behind an even run of backslashes:
behind an odd one it would be an escape that the grammar does not have.  So each of them becomes escapes of the
units that it stands for, and all else stays.  Between two parts of the grammar no backslash is left over, so
texts are escaped part by part.

* `Carried`: the texts of a relation stay in it, with the value that they had.
* `carried_value`: values of the grammar do, at any depth.
* `escape_keeps_meaning`: **escaping changes neither what a literal writes nor what a JSON text says**.
-/

namespace EnginePipe.Json

open Text (isAscii escapeFrom endsEscaped escapeUnit IsBare isBare_nil isBare_cons isBare_append)

/-- Escaping a text of the relation keeps it there with its value, and no backslash at its end is left over. -/
def Carried {α : Type} (P : List Char → α → Prop) : Prop :=
  ∀ ⦃cs : List Char⦄ ⦃x : α⦄, P cs x → endsEscaped false cs = false ∧ P (escapeFrom false cs) x

theorem endsEscaped_append {xs ys : List Char} (hx : endsEscaped false xs = false)
    (hy : endsEscaped false ys = false) : endsEscaped false (xs ++ ys) = false := by
  rw [Text.endsEscaped_append, hx, hy]

theorem escapeFrom_append {xs : List Char} (hx : endsEscaped false xs = false) (ys : List Char) :
    escapeFrom false (xs ++ ys) = escapeFrom false xs ++ escapeFrom false ys := by
  rw [Text.escapeFrom_append, hx]

/-- A character between two parts. -/
theorem endsEscaped_cons {c : Char} (hc : c ≠ '\\') (cs : List Char) :
    endsEscaped false (c :: cs) = endsEscaped false cs := by
  rw [endsEscaped, decide_eq_false hc, Bool.false_and]

/-! ### Strings -/

theorem isAscii_of_letterUnit? {e : Char} {u : Nat} (h : letterUnit? e = some u) : isAscii e := by
  unfold letterUnit? at h
  split at h
  all_goals first | decide | cases h

theorem stringInside_escapes {us vs : List Nat} {cs : List Char} (hus : ∀ u ∈ us, u < 0x10000)
    (h : StringInside cs vs) : StringInside (us.flatMap escapeUnit ++ cs) (us ++ vs) := by
  induction us with
  | nil => exact h
  | cons u us ih =>
    have hu := Text.ofHex?_hex4 (hus u List.mem_cons_self)
    exact .unit hu (ih fun v hv => hus v (List.mem_cons_of_mem u hv))

theorem carried_stringInside : Carried StringInside := by
  intro cs us h
  induction h with
  | nil => exact ⟨rfl, .nil⟩
  | @plain c cs us hq hb hc _ ih =>
    refine ⟨(endsEscaped_cons hb cs).trans ih.1, ?_⟩
    by_cases ha : isAscii c
    · rw [Text.escapeFrom_cons_of_ne ha hb]
      exact .plain hq hb hc ih.2
    · rw [Text.escapeFrom_false_of_not_isAscii ha]
      exact stringInside_escapes (fun u => Text.lt_of_mem_units) ih.2
  | @letter e u cs us he _ ih =>
    rw [Text.escapeFrom_pair (isAscii_of_letterUnit? he)]
    refine ⟨?_, .letter he ih.2⟩
    rw [endsEscaped, endsEscaped]
    simpa using ih.1
  | @unit a b c d u cs us hu _ ih =>
    have hbare : IsBare [a, b, c, d] := Text.isBare_of_ofHex? hu
    have hcs : escapeFrom false ([a, b, c, d] ++ cs) = [a, b, c, d] ++ escapeFrom false cs := by
      rw [escapeFrom_append hbare.endsEscaped, hbare.escapeFrom]
    have hends := endsEscaped_append hbare.endsEscaped ih.1
    rw [Text.escapeFrom_pair (by decide)]
    refine ⟨hends, ?_⟩
    rw [show a :: b :: c :: d :: cs = [a, b, c, d] ++ cs from rfl, hcs]
    exact .unit hu ih.2

theorem carried_string : Carried IsString := by
  rintro cs s ⟨inside, us, rfl, hinside, hs⟩
  obtain ⟨hends, hescaped⟩ := carried_stringInside hinside
  refine ⟨?_, escapeFrom false inside, us, ?_, hescaped, hs⟩
  · rw [endsEscaped_cons (by decide)]
    exact endsEscaped_append hends (by decide)
  · rw [Text.escapeFrom_cons_of_ne (by decide) (by decide), escapeFrom_append hends]
    rfl

/-! ### Numbers -/

theorem isBare_of_isDigit {ds : List Char} (h : ∀ d ∈ ds, d.isDigit) : IsBare ds := by
  intro d hd
  have hd := toNat_of_isDigit (h d hd)
  have h9 : '9'.toNat = 57 := rfl
  refine ⟨decide_eq_true (by omega), ?_⟩
  rintro rfl
  exact absurd hd (by decide)

theorem IsFraction.isBare {cs ds : List Char} (h : IsFraction cs ds) : IsBare cs := by
  cases h with
  | none => exact isBare_nil
  | some h => exact isBare_cons (by decide) (by decide) (isBare_of_isDigit h.2)

theorem IsExponent.isBare {cs : List Char} {e : Option (Bool × List Char)} (h : IsExponent cs e) : IsBare cs := by
  cases h with
  | none => exact isBare_nil
  | @some letter sign negative ds hl hs hd =>
    have hsign : IsBare sign := by
      cases hs with
      | none => exact isBare_nil
      | plus => exact isBare_cons (by decide) (by decide) isBare_nil
      | minus => exact isBare_cons (by decide) (by decide) isBare_nil
    have hrest := isBare_append hsign (isBare_of_isDigit hd.2)
    rcases hl with rfl | rfl
    · exact isBare_cons (by decide) (by decide) hrest
    · exact isBare_cons (by decide) (by decide) hrest

theorem IsUnsigned.isBare {cs : List Char} {t : NumberText} (h : IsUnsigned cs t) : IsBare cs := by
  obtain ⟨fraction, exponent, rfl, _, hd, hfraction, hexponent⟩ := h
  exact isBare_append (isBare_of_isDigit hd) (isBare_append hfraction.isBare hexponent.isBare)

theorem IsNumberText.isBare {cs : List Char} {t : NumberText} (h : IsNumberText cs t) : IsBare cs := by
  cases h with
  | plain _ h => exact h.isBare
  | minus _ h => exact isBare_cons (by decide) (by decide) h.isBare

/-! ### Values -/

theorem carried_scalar : Carried IsScalar := by
  intro cs v h
  cases h with
  | null => exact ⟨by decide, .null⟩
  | yes => exact ⟨by decide, .yes⟩
  | no => exact ⟨by decide, .no⟩
  | number h hv =>
    rw [h.isBare.escapeFrom]
    exact ⟨h.isBare.endsEscaped, .number h hv⟩
  | string h =>
    obtain ⟨hends, hs⟩ := carried_string h
    exact ⟨hends, .string hs⟩

theorem IsSpaces.isBare {cs : List Char} (h : IsSpaces cs) : IsBare cs := by
  intro c hc
  have hspace := h c hc
  simp only [isSpace, Bool.or_eq_true, decide_eq_true_eq] at hspace
  rcases hspace with ((rfl | rfl) | rfl) | rfl <;> decide

section

variable {α : Type} {P : List Char → α → Prop} (hP : Carried P)

include hP

theorem carried_padded : Carried (IsPadded P) := by
  rintro cs x ⟨before, text, after, rfl, hbefore, htext, hafter⟩
  obtain ⟨hends, htext⟩ := hP htext
  refine ⟨endsEscaped_append hbefore.isBare.endsEscaped (endsEscaped_append hends hafter.isBare.endsEscaped), ?_⟩
  rw [escapeFrom_append hbefore.isBare.endsEscaped, escapeFrom_append hends, hbefore.isBare.escapeFrom,
    hafter.isBare.escapeFrom]
  exact ⟨before, _, after, rfl, hbefore, htext, hafter⟩

theorem carried_separated : Carried (IsSeparated P) := by
  intro cs xs h
  induction h with
  | last h =>
    obtain ⟨hends, h⟩ := hP h
    exact ⟨hends, .last h⟩
  | @cons cs rest x xs h _ ih =>
    obtain ⟨hends, h⟩ := hP h
    refine ⟨endsEscaped_append hends ((endsEscaped_cons (by decide) rest).trans ih.1), ?_⟩
    rw [escapeFrom_append hends, Text.escapeFrom_cons_of_ne (by decide) (by decide)]
    exact .cons h ih.2

theorem carried_inside : Carried (IsInside P) := by
  intro cs xs h
  cases h with
  | empty h =>
    rw [h.isBare.escapeFrom]
    exact ⟨h.isBare.endsEscaped, .empty h⟩
  | members h =>
    obtain ⟨hends, h⟩ := carried_separated (carried_padded hP) h
    exact ⟨hends, .members h⟩

theorem carried_field : Carried (IsField P) := by
  rintro cs field ⟨key, before, after, text, rfl, hkey, hbefore, hafter, htext⟩
  obtain ⟨hkeyEnds, hkey⟩ := carried_string hkey
  obtain ⟨hends, htext⟩ := hP htext
  have hrest : endsEscaped false (after ++ text) = false := endsEscaped_append hafter.isBare.endsEscaped hends
  refine ⟨?_, escapeFrom false key, before, after, escapeFrom false text, ?_, hkey, hbefore, hafter, htext⟩
  · exact endsEscaped_append hkeyEnds (endsEscaped_append hbefore.isBare.endsEscaped
      ((endsEscaped_cons (by decide) _).trans hrest))
  · rw [escapeFrom_append hkeyEnds, escapeFrom_append hbefore.isBare.endsEscaped, hbefore.isBare.escapeFrom,
      Text.escapeFrom_cons_of_ne (by decide) (by decide), escapeFrom_append hafter.isBare.endsEscaped,
      hafter.isBare.escapeFrom]

/-- What stands between brackets is escaped there. -/
theorem carried_enclosed (opening closing : Char) (ho : isAscii opening ∧ opening ≠ '\\')
    (hc : isAscii closing ∧ closing ≠ '\\') {inside : List Char} {xs : List α} (h : IsInside P inside xs) :
    endsEscaped false (opening :: (inside ++ [closing])) = false ∧ ∃ escaped,
      escapeFrom false (opening :: (inside ++ [closing])) = opening :: (escaped ++ [closing]) ∧
      IsInside P escaped xs := by
  obtain ⟨hends, h⟩ := carried_inside hP h
  have hclosing : IsBare [closing] := isBare_cons hc.1 hc.2 isBare_nil
  refine ⟨?_, escapeFrom false inside, ?_, h⟩
  · rw [endsEscaped_cons ho.2]
    exact endsEscaped_append hends hclosing.endsEscaped
  · rw [Text.escapeFrom_cons_of_ne ho.1 ho.2, escapeFrom_append hends, hclosing.escapeFrom]

end

/-- **Values stay what they are.** -/
theorem carried_value (depth : Nat) : Carried (IsValue depth) := by
  induction depth with
  | zero => exact carried_scalar
  | succ depth ih =>
    rintro cs v (h | ⟨inside, items, rfl, hinside, rfl⟩ | ⟨inside, fields, rfl, hinside, rfl⟩)
    · obtain ⟨hends, h⟩ := carried_scalar h
      exact ⟨hends, Or.inl h⟩
    · obtain ⟨hends, escaped, hescaped, h⟩ := carried_enclosed ih '[' ']' (by decide) (by decide) hinside
      exact ⟨hends, Or.inr (Or.inl ⟨escaped, items, hescaped, h, rfl⟩)⟩
    · obtain ⟨hends, escaped, hescaped, h⟩ :=
        carried_enclosed (carried_field ih) '{' '}' (by decide) (by decide) hinside
      exact ⟨hends, Or.inr (Or.inr ⟨escaped, fields, hescaped, h, rfl⟩)⟩

theorem IsText.escape {text : String} {v : Value} (h : IsText text v) : IsText (Text.escape text) v := by
  obtain ⟨depth, h⟩ := h
  refine ⟨depth, ?_⟩
  rw [Text.escape, String.toList_ofList]
  exact (carried_padded (carried_value depth) h).2

/-- An escaped text is read as deep as the text itself. -/
theorem read?_escape {text : String} {v : Value} (h : read? text = some v) :
    read? (Text.escape text) = some v := by
  rw [read?_eq_some_iff] at h ⊢
  rw [Text.escape, String.toList_ofList]
  exact (carried_padded (carried_value maxNesting) h).2

/-- **Escaping never changes meaning.**  The escape of a text is ASCII, and the text itself if that is ASCII;
as the body of a string literal both write the same, or neither writes anything; and if the text is JSON so is
its escape, with the same value. -/
theorem escape_keeps_meaning (s : String) :
    (∀ c ∈ (Text.escape s).toList, isAscii c) ∧
    (Text.escape s = s ↔ ∀ c ∈ s.toList, isAscii c) ∧
    Text.unescape (Text.escape s).toList = Text.unescape s.toList ∧
    (∀ v, IsText s v → IsText (Text.escape s) v) ∧
    ∀ v, read? s = some v → read? (Text.escape s) = some v := by
  refine ⟨Text.escape_isAscii s, Text.escape_eq_self_iff, Text.unescape_escape s, ?_, ?_⟩
  · intro v h
    exact h.escape
  · intro v h
    exact read?_escape h

/-- A backslash before a character that is not ASCII begins no escape of JSON.  In the escape it begins a unit. -/
example : read? "\"\\é\"" = none ∧ read? (Text.escape "\"\\é\"") = some (.string "é") := by cbv

end EnginePipe.Json
