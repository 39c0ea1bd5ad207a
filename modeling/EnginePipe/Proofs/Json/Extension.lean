import EnginePipe.Proofs.Json.ReadBack
import Mathlib.Data.List.Basic

/-!
# A value ends where it ends

What is read from the front of a text does not change when more text is put behind it, except that a
number may go on.  A reader is **firm** if it is so in any case, and **firm inside** if it is so when it
has left something.

A text that begins with a bracket therefore holds a value at one length only: if a whole text holds one,
no proper beginning of it does (`readChars?_of_proper_beginning`).  This is what lets a reader of slices stop
at the right one.
-/

namespace EnginePipe.Json

/-- More text behind does not change what is read. -/
def Firm {α : Type} (reader : Reader α) : Prop :=
  ∀ ⦃cs : List Char⦄ ⦃x : α⦄ ⦃rest : List Char⦄, reader cs = some (x, rest) →
    ∀ more, reader (cs ++ more) = some (x, rest ++ more)

/-- More text behind does not change what is read if something was left. -/
def FirmInside {α : Type} (reader : Reader α) : Prop :=
  ∀ ⦃cs : List Char⦄ ⦃x : α⦄ ⦃rest : List Char⦄, reader cs = some (x, rest) → rest ≠ [] →
    ∀ more, reader (cs ++ more) = some (x, rest ++ more)

/-! ### Leaves -/

theorem skipSpace_append {cs : List Char} {c : Char} {rest : List Char} (h : skipSpace cs = c :: rest)
    (more : List Char) : skipSpace (cs ++ more) = c :: (rest ++ more) := by
  induction cs with
  | nil => simp [skipSpace] at h
  | cons d cs ih =>
    unfold skipSpace at h ih ⊢
    rw [List.cons_append, List.dropWhile_cons]
    rw [List.dropWhile_cons] at h
    split at h
    · next hd => rw [if_pos hd]; exact ih h
    · next hd =>
      rw [if_neg hd]
      simp only [List.cons.injEq] at h
      rw [h.1, h.2]

theorem firm_word {α : Type} (w : List Char) (result : α) : Firm (word w result) := by
  intro cs x rest h more
  rw [word] at h ⊢
  obtain ⟨tail, ht, he⟩ := Option.map_eq_some_iff.1 h
  simp only [Prod.mk.injEq] at he
  obtain ⟨rfl, rfl⟩ := he
  rw [List.isPrefixOf?_eq_some_iff_append_eq] at ht
  have hmore : w.isPrefixOf? (cs ++ more) = some (tail ++ more) := by
    rw [List.isPrefixOf?_eq_some_iff_append_eq, ← ht, List.append_assoc]
  rw [hmore]
  rfl

theorem digits_append_of_ne_nil {cs : List Char} (h : (digits cs).2 ≠ []) (more : List Char) :
    digits (cs ++ more) = ((digits cs).1, (digits cs).2 ++ more) := by
  unfold digits at h ⊢
  induction cs with
  | nil => simp at h
  | cons d cs ih =>
    rw [List.cons_append, List.takeWhile_cons, List.dropWhile_cons, List.takeWhile_cons,
      List.dropWhile_cons]
    rw [List.dropWhile_cons] at h
    by_cases hd : d.isDigit
    · simp only [hd, if_true] at h ⊢
      have := ih h
      simp only [Prod.mk.injEq] at this
      rw [this.1, this.2]
    · simp only [hd, Bool.false_eq_true, if_false, List.cons_append]

theorem firmInside_fraction : FirmInside fraction := by
  intro cs x rest h hr more
  unfold fraction at h
  split at h
  · next cs =>
    split at h
    · simp at h
    · next hd =>
      simp only [Option.some.injEq, Prod.ext_iff] at h
      have hn : (digits cs).2 ≠ [] := by rw [h.2]; exact hr
      rw [List.cons_append, fraction, digits_append_of_ne_nil hn, if_neg hd, h.1, h.2]
  · next hdot =>
    simp only [Option.some.injEq, Prod.mk.injEq] at h
    obtain ⟨rfl, rfl⟩ := h
    cases cs with
    | nil => exact absurd rfl hr
    | cons c cs =>
      unfold fraction
      split
      · next he => simp only [List.cons_append, List.cons.injEq] at he; exact absurd (by rw [he.1]) (hdot cs)
      · rfl

theorem firmInside_exponentDigits (negative : Bool) : FirmInside (exponentDigits negative) := by
  intro cs x rest h hr more
  unfold exponentDigits at h
  split at h
  · simp at h
  · next hd =>
    simp only [Option.some.injEq, Prod.mk.injEq] at h
    have hn : (digits cs).2 ≠ [] := by rw [h.2]; exact hr
    rw [exponentDigits, digits_append_of_ne_nil hn, if_neg hd, h.1, h.2]

theorem firmInside_signedExponent : FirmInside signedExponent := by
  intro cs x rest h hr more
  unfold signedExponent at h
  split at h
  · exact firmInside_exponentDigits false h hr more
  · exact firmInside_exponentDigits true h hr more
  · next hp hm =>
    have hd := firmInside_exponentDigits false h hr more
    cases cs with
    | nil => simp [exponentDigits, digits] at h
    | cons c cs =>
      rw [List.cons_append] at hd ⊢
      unfold signedExponent
      split
      · next he => simp only [List.cons.injEq] at he; exact absurd (by rw [he.1]) (hp cs)
      · next he => simp only [List.cons.injEq] at he; exact absurd (by rw [he.1]) (hm cs)
      · exact hd

theorem firmInside_exponent : FirmInside exponent := by
  intro cs x rest h hr more
  unfold exponent at h
  split at h
  · exact firmInside_signedExponent h hr more
  · exact firmInside_signedExponent h hr more
  · next hl hu =>
    simp only [Option.some.injEq, Prod.mk.injEq] at h
    obtain ⟨rfl, rfl⟩ := h
    cases cs with
    | nil => exact absurd rfl hr
    | cons c cs =>
      rw [List.cons_append]
      unfold exponent
      split
      · next he => simp only [List.cons.injEq] at he; exact absurd (by rw [he.1]) (hl cs)
      · next he => simp only [List.cons.injEq] at he; exact absurd (by rw [he.1]) (hu cs)
      · rfl

theorem firmInside_unsignedText (negative : Bool) : FirmInside (unsignedText negative) := by
  intro cs x rest h hr more
  unfold unsignedText at h ⊢
  simp only [Option.bind_eq_bind] at h ⊢
  split at h
  · next hw =>
    obtain ⟨⟨ds, cs₁⟩, hf, h⟩ := Option.bind_eq_some_iff.1 h
    obtain ⟨⟨e, cs₂⟩, he, h⟩ := Option.bind_eq_some_iff.1 h
    simp only [Option.some.injEq, Prod.mk.injEq] at h
    obtain ⟨rfl, rfl⟩ := h
    -- A part that left nothing would leave nothing to the parts behind it.
    have h₁ : cs₁ ≠ [] := by
      rintro rfl
      simp only [exponent, Option.some.injEq, Prod.mk.injEq] at he
      exact hr he.2.symm
    have h₀ : (digits cs).2 ≠ [] := by
      intro hn
      rw [hn] at hf
      simp only [fraction, Option.some.injEq, Prod.mk.injEq] at hf
      exact h₁ hf.2.symm
    simp only [digits_append_of_ne_nil h₀, hw, if_true, firmInside_fraction hf h₁,
      firmInside_exponent he hr, Option.bind_some]
  · simp at h

theorem firmInside_numberText : FirmInside numberText := by
  intro cs x rest h hr more
  unfold numberText at h
  split at h
  · exact firmInside_unsignedText true h hr more
  · next hm =>
    have hu := firmInside_unsignedText false h hr more
    cases cs with
    | nil => simp [unsignedText, digits, isWhole] at h
    | cons c cs =>
      rw [List.cons_append] at hu ⊢
      unfold numberText
      split
      · next he => simp only [List.cons.injEq] at he; exact absurd (by rw [he.1]) (hm cs)
      · exact hu

theorem firmInside_number : FirmInside number := by
  intro cs x rest h hr more
  unfold number at h ⊢
  simp only [Option.bind_eq_bind] at h ⊢
  obtain ⟨⟨t, cs₁⟩, ht, h⟩ := Option.bind_eq_some_iff.1 h
  obtain ⟨v, hv, h⟩ := Option.bind_eq_some_iff.1 h
  simp only [Option.some.injEq, Prod.mk.injEq] at h
  obtain ⟨rfl, rfl⟩ := h
  simp only [firmInside_numberText ht hr, hv, Option.bind_some]

theorem firm_stringUnits : Firm stringUnits := by
  intro cs x rest h more
  fun_induction stringUnits cs generalizing x rest with
  | case1 => simp at h
  | case2 cs =>
    simp only [Option.some.injEq, Prod.mk.injEq] at h
    obtain ⟨rfl, rfl⟩ := h
    rw [List.cons_append, stringUnits]
  | case3 a b c d cs ih =>
    simp only [Option.bind_eq_bind] at h
    obtain ⟨u, hu, h⟩ := Option.bind_eq_some_iff.1 h
    obtain ⟨⟨us, cs'⟩, hs, h⟩ := Option.bind_eq_some_iff.1 h
    simp only [Option.some.injEq, Prod.mk.injEq] at h
    obtain ⟨rfl, rfl⟩ := h
    simp only [List.cons_append, stringUnits, hu, ih hs, Option.bind_eq_bind, Option.bind_some]
  | case4 c cs _ ih =>
    simp only [Option.bind_eq_bind] at h
    obtain ⟨u, hu, h⟩ := Option.bind_eq_some_iff.1 h
    obtain ⟨⟨us, cs'⟩, hs, h⟩ := Option.bind_eq_some_iff.1 h
    simp only [Option.some.injEq, Prod.mk.injEq] at h
    obtain ⟨rfl, rfl⟩ := h
    rw [List.cons_append, List.cons_append, stringUnits_letter hu, ih hs]
    rfl
  | case5 => simp at h
  | case6 c cs hq _ _ hc ih =>
    obtain ⟨⟨us, cs'⟩, hs, h⟩ := Option.bind_eq_some_iff.1 h
    simp only [Option.some.injEq, Prod.mk.injEq] at h
    obtain ⟨rfl, rfl⟩ := h
    rw [not_or] at hc
    rw [List.cons_append, stringUnits_plain hq hc.2 hc.1, ih hs]
    rfl

theorem firm_stringBody : Firm stringBody := by
  intro cs x rest h more
  unfold stringBody at h ⊢
  simp only [Option.bind_eq_bind] at h ⊢
  obtain ⟨⟨us, cs'⟩, hs, h⟩ := Option.bind_eq_some_iff.1 h
  obtain ⟨text, ht, h⟩ := Option.bind_eq_some_iff.1 h
  simp only [Option.some.injEq, Prod.mk.injEq] at h
  obtain ⟨rfl, rfl⟩ := h
  simp only [firm_stringUnits hs, ht, Option.bind_some]

theorem Firm.map {α β : Type} {reader : Reader α} (h : Firm reader) (f : α → β) :
    Firm fun cs => (reader cs).map fun (x, rest) => (f x, rest) := by
  intro cs y rest hy more
  obtain ⟨⟨x, rest'⟩, hx, he⟩ := Option.map_eq_some_iff.1 hy
  simp only [Prod.mk.injEq] at he
  obtain ⟨rfl, rfl⟩ := he
  simp only [h hx more, Option.map_some]

theorem firmInside_scalar : FirmInside scalar := by
  intro cs x rest h hr more
  unfold scalar at h
  split at h
  · rw [List.cons_append, scalar]; exact firm_stringBody.map Value.string h more
  · rw [List.cons_append, scalar]; exact firm_word _ _ h more
  · rw [List.cons_append, scalar]; exact firm_word _ _ h more
  · rw [List.cons_append, scalar]; exact firm_word _ _ h more
  · next hq hn ht hf =>
    have hnum := firmInside_number h hr more
    cases cs with
    | nil => simp [number, numberText, unsignedText, digits, isWhole] at h
    | cons c cs =>
      rw [List.cons_append] at hnum ⊢
      unfold scalar
      split
      · next he => simp only [List.cons.injEq] at he; exact absurd (by rw [he.1]) (hq cs)
      · next he => simp only [List.cons.injEq] at he; exact absurd (by rw [he.1]) (hn cs)
      · next he => simp only [List.cons.injEq] at he; exact absurd (by rw [he.1]) (ht cs)
      · next he => simp only [List.cons.injEq] at he; exact absurd (by rw [he.1]) (hf cs)
      · exact hnum

/-! ### Containers -/

theorem sequence_append {α : Type} {item : Reader α} (hi : FirmInside item) {close : Char}
    {fuel fuel' : Nat} (hf : fuel ≤ fuel') {cs : List Char} {xs : List α} {rest : List Char}
    (h : sequence item close fuel cs = some (xs, rest)) (more : List Char) :
    sequence item close fuel' (cs ++ more) = some (xs, rest ++ more) := by
  induction fuel generalizing fuel' cs xs with
  | zero => simp [sequence] at h
  | succ fuel ih =>
    cases fuel' with
    | zero => simp at hf
    | succ fuel' =>
      simp only [sequence, Option.bind_eq_bind] at h ⊢
      obtain ⟨⟨x, cs₁⟩, hx, h⟩ := Option.bind_eq_some_iff.1 h
      cases hs : skipSpace cs₁ with
      | nil => simp [hs] at h
      | cons c cs₂ =>
        have hne : cs₁ ≠ [] := by
          rintro rfl
          simp [skipSpace] at hs
        simp only [hi hx hne more, Option.bind_some, skipSpace_append hs more]
        simp only [hs] at h
        split at h
        · next hc =>
          obtain ⟨⟨xs', cs₃⟩, hxs, h⟩ := Option.bind_eq_some_iff.1 h
          simp only [Option.some.injEq, Prod.mk.injEq] at h
          obtain ⟨rfl, rfl⟩ := h
          simp only [if_pos hc, ih (Nat.le_of_succ_le_succ hf) hxs, Option.bind_some]
        · next hc =>
          split at h
          · next hcl =>
            simp only [Option.some.injEq, Prod.mk.injEq] at h
            obtain ⟨rfl, rfl⟩ := h
            simp only [if_neg hc, if_pos hcl]
          · simp at h

theorem firm_enclosed {α : Type} {item : Reader α} (hi : FirmInside item) (close : Char) :
    Firm (enclosed item close) := by
  intro cs xs rest h more
  rw [enclosed] at h ⊢
  cases hs : skipSpace cs with
  | nil => simp [hs] at h
  | cons c cs₁ =>
    simp only [hs] at h
    simp only [skipSpace_append hs more]
    split at h
    · next hc =>
      simp only [Option.some.injEq, Prod.mk.injEq] at h
      obtain ⟨rfl, rfl⟩ := h
      rw [if_pos hc]
    · next hc =>
      rw [if_neg hc]
      refine sequence_append hi ?_ h more
      rw [List.length_append]
      omega

theorem firmInside_field {α : Type} {value : Reader α} (hv : FirmInside value) :
    FirmInside (field value) := by
  intro cs x rest h hr more
  unfold field at h ⊢
  split at h
  · next cs₁ hs =>
    simp only [skipSpace_append hs more]
    simp only [Option.bind_eq_bind] at h ⊢
    obtain ⟨⟨key, cs₂⟩, hk, h⟩ := Option.bind_eq_some_iff.1 h
    simp only [firm_stringBody hk more, Option.bind_some]
    split at h
    · next cs₃ hs' =>
      obtain ⟨⟨v, cs₄⟩, hv', h⟩ := Option.bind_eq_some_iff.1 h
      simp only [Option.some.injEq, Prod.mk.injEq] at h
      obtain ⟨rfl, rfl⟩ := h
      simp only [skipSpace_append hs' more, hv hv' hr more, Option.bind_some]
    · simp at h
  · simp at h

theorem firmInside_value (depth : Nat) : FirmInside (value depth) := by
  induction depth with
  | zero =>
    intro cs x rest h hr more
    rw [value] at h ⊢
    dsimp only at h ⊢
    cases hs : skipSpace cs with
    | nil => rw [hs] at h; simp [scalar, number, numberText, unsignedText, digits, isWhole] at h
    | cons c cs₁ =>
      rw [skipSpace_append hs more]
      rw [hs] at h
      exact firmInside_scalar h hr more
  | succ depth ih =>
    intro cs x rest h hr more
    rw [value] at h ⊢
    dsimp only at h ⊢
    cases hs : skipSpace cs with
    | nil => rw [hs] at h; simp [scalar, number, numberText, unsignedText, digits, isWhole] at h
    | cons c cs₁ =>
      rw [skipSpace_append hs more]
      rw [hs] at h
      split at h
      · next he =>
        simp only [List.cons.injEq] at he
        obtain ⟨rfl, rfl⟩ := he
        exact (firm_enclosed ih ']').map Value.array h more
      · next he =>
        simp only [List.cons.injEq] at he
        obtain ⟨rfl, rfl⟩ := he
        exact (firm_enclosed (firmInside_field ih) '\x7d').map (fun fields => Value.object (fieldsOf fields)) h
          more
      · next ha ho =>
        have hsc := firmInside_scalar h hr more
        split
        · next he => simp only [List.cons.injEq] at he; exact absurd (by rw [he.1]) (ha cs₁)
        · next he => simp only [List.cons.injEq] at he; exact absurd (by rw [he.1]) (ho cs₁)
        · exact hsc

/-- What begins with a bracket ends with it. -/
theorem value_array_append {depth : Nat} {cs : List Char} {v : Value} {rest : List Char}
    (h : value depth ('[' :: cs) = some (v, rest)) (more : List Char) :
    value depth ('[' :: (cs ++ more)) = some (v, rest ++ more) := by
  cases depth with
  | zero =>
    rw [value] at h
    simp [skipSpace, isSpace, scalar, number, numberText, unsignedText, digits, isWhole] at h
  | succ depth =>
    rw [value_array] at h ⊢
    exact (firm_enclosed (firmInside_value depth) ']').map Value.array h more

/-! ### Proper beginnings -/

/-- **No proper beginning of a bracketed text is a text.** -/
theorem readChars?_of_proper_beginning {cs tail : List Char} {v : Value}
    (h : value maxNesting ('[' :: (cs ++ tail)) = some (v, [])) (ht : tail ≠ []) :
    readChars? ('[' :: cs) = none := by
  rw [readChars?]
  cases hv : value maxNesting ('[' :: cs) with
  | none => rfl
  | some r =>
    obtain ⟨w, rest⟩ := r
    have hext := value_array_append hv tail
    rw [h] at hext
    simp only [Option.some.injEq, Prod.mk.injEq] at hext
    have := List.append_eq_nil_iff.1 hext.2.symm
    exact absurd this.2 ht

end EnginePipe.Json
