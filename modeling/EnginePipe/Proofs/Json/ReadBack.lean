import EnginePipe.Proofs.Json.Leaves
import EnginePipe.Proofs.Json.Members

/-!
# Printed values are read back

A well-formed value whose reals are all legible is read from its printed text, and nothing behind it is
touched.  Reading rounds more than once, so a real may come back as a neighbour: `Value.reread` says what
a value comes back as.  A value without reals comes back as it was (`reread_of_integral`).

* `sequence_separated`, `enclosed_separated`: a container is read if its members are.
* `value_print`: **the text of a value is read**, at any depth that the value fits into.
-/

namespace EnginePipe.Json

/-! ### Containers -/

/-- What stands behind a member of a container. -/
def AfterMember (close : Char) (cs : List Char) : Prop := ∃ c rest, cs = c :: rest ∧ (c = ',' ∨ c = close)

section

variable {α β : Type} {item : Reader α} {close : Char} {print : β → List Char} {result : β → α}

theorem sequence_separated (hs : isSpace close = false) (hc : close ≠ ',') {bs : List β} (hn : bs ≠ [])
    (hb : ∀ b ∈ bs, ∀ cs, AfterMember close cs → item (print b ++ cs) = some (result b, cs))
    {fuel : Nat} (hf : bs.length ≤ fuel) (rest : List Char) :
    sequence item close fuel (Value.separated print bs ++ close :: rest) =
      some (bs.map result, rest) := by
  induction bs generalizing fuel with
  | nil => exact absurd rfl hn
  | cons b bs ih =>
    cases fuel with
    | zero => simp at hf
    | succ fuel =>
      cases bs with
      | nil =>
        have ha := hb b (by simp) (close :: rest) ⟨close, rest, rfl, Or.inr rfl⟩
        rw [sequence, Value.separated, ha]
        simp only [Option.bind_eq_bind, Option.bind_some, skipSpace_of_not_isSpace _ hs, if_neg hc,
          if_true, List.map_cons, List.map_nil]
      | cons next bs =>
        have has := ih (by simp) (fun x hx => hb x (List.mem_cons_of_mem b hx)) (by simpa using hf)
        have ha := hb b (by simp) (',' :: (Value.separated print (next :: bs) ++ close :: rest))
          ⟨',', _, rfl, Or.inl rfl⟩
        have hcomma : isSpace ',' = false := by decide
        rw [sequence, Value.separated, List.append_assoc, List.cons_append, ha]
        simp only [Option.bind_eq_bind, Option.bind_some, skipSpace_of_not_isSpace _ hcomma, if_true,
          has, List.map_cons]

theorem length_le_length_separated {bs : List β} (h : ∀ b ∈ bs, print b ≠ []) :
    bs.length ≤ (Value.separated print bs).length := by
  induction bs with
  | nil => simp
  | cons b bs ih =>
    have hb := List.length_pos_iff.2 (h b (by simp))
    have hbs := ih fun x hx => h x (List.mem_cons_of_mem b hx)
    cases bs with
    | nil => exact hb
    | cons next bs =>
      simp only [Value.separated, List.length_append, List.length_cons] at hbs ⊢
      omega

theorem head_separated {b : β} {c : Char} {cs : List Char} (h : print b = c :: cs) (bs : List β) :
    ∃ tail, Value.separated print (b :: bs) = c :: tail := by
  cases bs with
  | nil => exact ⟨cs, h⟩
  | cons next bs => exact ⟨_, by rw [Value.separated, h, List.cons_append]⟩

theorem enclosed_separated (hs : isSpace close = false) (hc : close ≠ ',') {bs : List β}
    (hp : ∀ b ∈ bs, ∃ c cs, print b = c :: cs ∧ isSpace c = false ∧ c ≠ close)
    (hb : ∀ b ∈ bs, ∀ cs, AfterMember close cs → item (print b ++ cs) = some (result b, cs))
    (rest : List Char) :
    enclosed item close (Value.separated print bs ++ close :: rest) = some (bs.map result, rest) := by
  cases bs with
  | nil =>
    rw [Value.separated, List.nil_append, enclosed, skipSpace_of_not_isSpace _ hs]
    simp
  | cons b bs =>
    obtain ⟨c, cs, hbc, hsp, hne⟩ := hp b (by simp)
    obtain ⟨tail, ht⟩ := head_separated hbc bs
    have hlen : (b :: bs).length ≤ (Value.separated print (b :: bs)).length := by
      refine length_le_length_separated fun x hx => ?_
      obtain ⟨d, ds, hd, _⟩ := hp x hx
      rw [hd]
      exact List.cons_ne_nil d ds
    have hfuel : (b :: bs).length ≤ (Value.separated print (b :: bs) ++ close :: rest).length := by
      rw [List.length_append]
      omega
    have has := sequence_separated hs hc (List.cons_ne_nil b bs) hb hfuel rest
    rw [enclosed]
    rw [ht, List.cons_append] at has ⊢
    rw [skipSpace_of_not_isSpace _ hsp]
    simp only [if_neg hne]
    exact has

end

theorem AfterMember.endsNumber {close : Char} (hd : close.isDigit = false ∧ close ≠ '.' ∧ close ≠ 'e' ∧
    close ≠ 'E') {cs : List Char} (h : AfterMember close cs) : EndsNumber cs := by
  obtain ⟨c, rest, rfl, hc⟩ := h
  intro d hd'
  simp only [List.head?_cons, Option.mem_some_iff] at hd'
  subst hd'
  rcases hc with rfl | rfl
  · exact ⟨by decide, by decide, by decide, by decide⟩
  · exact hd

/-! ### What a value comes back as -/

/-- A real whose text is read. -/
def Legible (x : Real.Binary64) : Prop := (realText x).value.isSome

namespace Value

mutual

/-- What is read from the text of a value. -/
def reread : Value → Value
  | .real x => (realText x).value.getD (.real x)
  | .array items => .array (rereadItems items)
  | .object fields => .object (fieldsOf (rereadFields fields))
  | .null => .null
  | .bool b => .bool b
  | .integer n => .integer n
  | .string s => .string s

/-- What is read from the texts of items. -/
def rereadItems : List Value → List Value
  | [] => []
  | item :: items => item.reread :: rereadItems items

/-- What is read from the texts of fields. -/
def rereadFields : List (String × Value) → List (String × Value)
  | [] => []
  | (key, value) :: fields => (key, value.reread) :: rereadFields fields

end

theorem rereadItems_eq_map (items : List Value) : rereadItems items = items.map reread := by
  induction items with
  | nil => rfl
  | cons item items ih => rw [rereadItems, ih, List.map_cons]

theorem rereadFields_eq_map (fields : List (String × Value)) :
    rereadFields fields = fields.map fun field => (field.1, field.2.reread) := by
  induction fields with
  | nil => rfl
  | cons field fields ih => rw [rereadFields, ih, List.map_cons]

end Value

/-! ### Fields in order -/

theorem insertField_of_lt {α : Type} {key : String} {value : α} {fields : List (String × α)}
    (h : ∀ field ∈ fields, field.1 < key) :
    insertField key value fields = fields ++ [(key, value)] := by
  induction fields with
  | nil => rfl
  | cons field fields ih =>
    obtain ⟨k, v⟩ := field
    have hk : k < key := h (k, v) (by simp)
    have hne : key ≠ k := fun he => String.lt_irrefl k (he ▸ hk)
    rw [insertField, if_neg (String.lt_asymm hk), if_neg hne,
      ih fun field hf => h field (List.mem_cons_of_mem _ hf), List.cons_append]

/-- Fields that are in order already stay as they are. -/
theorem fieldsOf_of_pairwise {α : Type} {fields : List (String × α)}
    (h : fields.Pairwise fun f g => f.1 < g.1) : fieldsOf fields = fields := by
  have key : ∀ (behind front : List (String × α)),
      (front ++ behind).Pairwise (fun f g => f.1 < g.1) →
      behind.foldl (fun fields field => insertField field.1 field.2 fields) front =
        front ++ behind := by
    intro behind
    induction behind with
    | nil => intro front _; simp
    | cons field behind ih =>
      intro front hp
      have hlt : ∀ f ∈ front, f.1 < field.1 := fun f hf =>
        (List.pairwise_append.1 hp).2.2 f hf field (by simp)
      rw [List.foldl_cons]
      rw [insertField_of_lt hlt, ih (front ++ [field]) (by simpa using hp)]
      simp
  exact key fields [] h

theorem Value.reread_of_integral {v : Value} (hi : v.Integral) (hw : v.WellFormed) : v.reread = v := by
  induction v using inductionOn with
  | null => rfl
  | bool b => rfl
  | integer n => rfl
  | real x => exact absurd hi id
  | string s => rfl
  | array items ih =>
    have hitems := List.map_congr_left fun item hm =>
      ih item hm (itemsIntegral_iff.1 hi item hm) (itemsWellFormed_iff.1 hw item hm)
    rw [reread, rereadItems_eq_map, hitems, List.map_id']
  | object fields ih =>
    have hfields : fields.map (fun field => (field.1, field.2.reread)) = fields := by
      refine (List.map_congr_left fun field hm => ?_).trans (List.map_id' fields)
      rw [ih field hm (fieldsIntegral_iff.1 hi field hm) (fieldsWellFormed_iff.1 hw.2 field hm)]
    rw [reread, rereadFields_eq_map, hfields, fieldsOf_of_pairwise hw.1]

/-! ### Reading a printed value -/

theorem value_array (depth : Nat) (cs : List Char) :
    value (depth + 1) ('[' :: cs) =
      (enclosed (value depth) ']' cs).map fun (items, cs) => (.array items, cs) := by
  have h : isSpace '[' = false := by decide
  rw [value]
  simp only [skipSpace_of_not_isSpace cs h]

theorem value_object (depth : Nat) (cs : List Char) :
    value (depth + 1) ('\x7b' :: cs) =
      (enclosed (field (value depth)) '\x7d' cs).map fun (fields, cs) =>
        (.object (fieldsOf fields), cs) := by
  have h : isSpace '\x7b' = false := by decide
  rw [value]
  simp only [skipSpace_of_not_isSpace cs h]

theorem value_of_not_container {c : Char} (hs : isSpace c = false) (ha : c ≠ '[') (ho : c ≠ '\x7b')
    (depth : Nat) (cs : List Char) : value depth (c :: cs) = scalar (c :: cs) := by
  cases depth with
  | zero =>
    rw [value]
    simp only [skipSpace_of_not_isSpace cs hs]
  | succ depth =>
    rw [value]
    simp only [skipSpace_of_not_isSpace cs hs]
    split
    · next h => simp only [List.cons.injEq] at h; exact absurd h.1 ha
    · next h => simp only [List.cons.injEq] at h; exact absurd h.1 ho
    · rfl

/-- The characters that a number begins with. -/
def BeginsNumber (c : Char) : Prop := c = '-' ∨ c.isDigit

theorem BeginsNumber.not {c d : Char} (h : BeginsNumber c) (hd : d ≠ '-' ∧ d.isDigit = false) :
    c ≠ d := by
  rintro rfl
  rcases h with rfl | h
  · exact hd.1 rfl
  · rw [hd.2] at h; exact absurd h (by decide)

theorem BeginsNumber.not_isSpace {c : Char} (h : BeginsNumber c) : isSpace c = false := by
  have h1 := h.not (d := ' ') (by decide)
  have h2 := h.not (d := '\t') (by decide)
  have h3 := h.not (d := '\n') (by decide)
  have h4 := h.not (d := '\r') (by decide)
  simp [isSpace, h1, h2, h3, h4]

theorem scalar_of_beginsNumber {c : Char} (h : BeginsNumber c) (cs : List Char) :
    scalar (c :: cs) = number (c :: cs) := by
  unfold scalar
  split
  · next he => simp only [List.cons.injEq] at he; exact absurd he.1 (h.not (by decide))
  · next he => simp only [List.cons.injEq] at he; exact absurd he.1 (h.not (by decide))
  · next he => simp only [List.cons.injEq] at he; exact absurd he.1 (h.not (by decide))
  · next he => simp only [List.cons.injEq] at he; exact absurd he.1 (h.not (by decide))
  · rfl

theorem NumberText.Proper.head_written {t : NumberText} (h : t.Proper) :
    ∃ c cs, t.written = c :: cs ∧ BeginsNumber c := by
  obtain ⟨d, ds, hd, hdig⟩ := h.head_ne
  rw [NumberText.written]
  split
  · exact ⟨'-', t.unsigned, rfl, Or.inl rfl⟩
  · exact ⟨d, ds, hd, Or.inr hdig⟩

theorem value_written {t : NumberText} (h : t.Proper) {rest : List Char} (hr : EndsNumber rest)
    (depth : Nat) : value depth (t.written ++ rest) = t.value.map fun v => (v, rest) := by
  obtain ⟨c, cs, hc, hb⟩ := h.head_written
  rw [← number_written h hr, hc, List.cons_append, value_of_not_container hb.not_isSpace
    (hb.not (by decide)) (hb.not (by decide)), scalar_of_beginsNumber hb]

theorem value_printString (s : String) (depth : Nat) (rest : List Char) :
    value depth (printString s ++ rest) = some (.string s, rest) := by
  rw [printString, List.cons_append, List.append_assoc, List.cons_append, List.nil_append,
    value_of_not_container (by decide) (by decide) (by decide), scalar, stringBody_printed]
  rfl

theorem Value.head_print (v : Value) :
    ∃ c cs, v.print = c :: cs ∧ isSpace c = false ∧ c ≠ ']' := by
  cases v with
  | null => exact ⟨'n', _, by rw [print], by decide, by decide⟩
  | bool b => cases b <;> exact ⟨_, _, by rw [print], by decide, by decide⟩
  | integer n =>
    obtain ⟨c, cs, hc, hb⟩ := (integerText_proper n).head_written
    exact ⟨c, cs, by rw [print, printInt_eq_written, hc], hb.not_isSpace, hb.not (by decide)⟩
  | real x =>
    obtain ⟨c, cs, hc, hb⟩ := (realText_proper x).head_written
    exact ⟨c, cs, by rw [print, printReal_eq_written, hc], hb.not_isSpace, hb.not (by decide)⟩
  | string s => exact ⟨'"', _, by rw [print, printString], by decide, by decide⟩
  | array items => exact ⟨'[', _, by rw [print], by decide, by decide⟩
  | object fields => exact ⟨'\x7b', _, by rw [print], by decide, by decide⟩

theorem field_printField {key : String} {v w : Value} {depth : Nat} {cs : List Char}
    (h : value depth (v.print ++ cs) = some (w, cs)) :
    field (value depth) (Value.printField (key, v) ++ cs) = some ((key, w), cs) := by
  have hq : isSpace '"' = false := by decide
  have hc : isSpace ':' = false := by decide
  rw [Value.printField, printString, field, List.cons_append, List.cons_append,
    skipSpace_of_not_isSpace _ hq]
  simp only [List.append_assoc, List.cons_append, List.nil_append, stringBody_printed,
    Option.bind_eq_bind, Option.bind_some, skipSpace_of_not_isSpace _ hc, h]

/-- **A printed value is read**, and what stands behind it is left. -/
theorem value_print {v : Value} (hw : v.WellFormed) (hl : v.RealsIn Legible) {depth : Nat}
    (hd : v.nesting ≤ depth) {rest : List Char} (hr : EndsNumber rest) :
    value depth (v.print ++ rest) = some (v.reread, rest) := by
  induction v using Value.inductionOn generalizing depth rest with
  | null => rw [Value.print]; exact value_of_not_container (by decide) (by decide) (by decide) _ _
  | bool b =>
    cases b <;> rw [Value.print] <;>
      exact value_of_not_container (by decide) (by decide) (by decide) _ _
  | integer n =>
    rw [Value.print, printInt_eq_written, value_written (integerText_proper n) hr,
      value_integerText hw.1 hw.2]
    rfl
  | real x =>
    cases hl with
    | real hx =>
      obtain ⟨w, hw⟩ := Option.isSome_iff_exists.1 hx
      rw [Value.print, printReal_eq_written, value_written (realText_proper x) hr, Value.reread, hw]
      rfl
  | string s => exact value_printString s depth rest
  | array items ih =>
    cases hl with
    | array hl =>
      cases depth with
      | zero => simp [Value.nesting] at hd
      | succ depth =>
        have hd' := Value.itemsNesting_le_iff.1 (Nat.le_of_succ_le_succ hd)
        have hitem : ∀ item ∈ items, ∀ cs, AfterMember ']' cs →
            value depth (item.print ++ cs) = some (item.reread, cs) := fun item hm cs hcs =>
          ih item hm (Value.itemsWellFormed_iff.1 hw item hm) (hl item hm) (hd' item hm)
            (hcs.endsNumber (by decide))
        rw [Value.print, List.cons_append, List.append_assoc, List.cons_append, List.nil_append,
          value_array, Value.printItems_eq_separated, enclosed_separated (by decide) (by decide)
            (fun item _ => item.head_print) hitem rest, Value.reread, Value.rereadItems_eq_map]
        rfl
  | object fields ih =>
    cases hl with
    | object hl =>
      cases depth with
      | zero => simp [Value.nesting] at hd
      | succ depth =>
        have hd' := Value.fieldsNesting_le_iff.1 (Nat.le_of_succ_le_succ hd)
        have hfield : ∀ f ∈ fields, ∀ cs, AfterMember '\x7d' cs →
            field (value depth) (Value.printField f ++ cs) = some ((f.1, f.2.reread), cs) :=
          fun f hm cs hcs => field_printField
            (ih f hm (Value.fieldsWellFormed_iff.1 hw.2 f hm) (hl f hm) (hd' f hm)
              (hcs.endsNumber (by decide)))
        have hhead : ∀ f ∈ fields, ∃ c cs, Value.printField f = c :: cs ∧ isSpace c = false ∧
            c ≠ '\x7d' := fun f _ =>
          ⟨'"', _, by rw [Value.printField, printString, List.cons_append], by decide, by decide⟩
        rw [Value.print, List.cons_append, List.append_assoc, List.cons_append, List.nil_append,
          value_object, Value.printFields_eq_separated, enclosed_separated (by decide) (by decide)
            hhead hfield rest, Value.reread, Value.rereadFields_eq_map]
        rfl

/-! ### One line -/

theorem ge_of_isDigit {c : Char} (h : c.isDigit) : 0x20 ≤ c.toNat := by
  simp only [Char.isDigit, Bool.and_eq_true, decide_eq_true_eq] at h
  have h0 : '0'.toNat ≤ c.toNat := h.1
  exact Nat.le_trans (by decide) h0

theorem NumberText.Proper.mem_written_ge {t : NumberText} (h : t.Proper) {c : Char}
    (hc : c ∈ t.written) : 0x20 ≤ c.toNat := by
  have hfraction : ∀ c ∈ writtenFraction t.fraction, 0x20 ≤ c.toNat := by
    intro c hc
    cases hf : t.fraction with
    | nil => rw [hf, writtenFraction] at hc; cases hc
    | cons d ds =>
      rw [hf, writtenFraction] at hc
      · rcases List.mem_cons.1 hc with rfl | hc
        · decide
        · exact ge_of_isDigit (h.fraction_digits c (hf ▸ hc))
      · exact List.cons_ne_nil d ds
  have hexponent : ∀ c ∈ writtenExponent t.exponent, 0x20 ≤ c.toNat := by
    intro c hc
    cases he : t.exponent with
    | none => rw [he, writtenExponent] at hc; cases hc
    | some e =>
      rw [he, writtenExponent] at hc
      rcases List.mem_cons.1 hc with rfl | hc
      · decide
      rcases List.mem_cons.1 hc with rfl | hc
      · split <;> decide
      · exact ge_of_isDigit ((h.exponent_digits e he).2 c hc)
  have hunsigned : ∀ c ∈ t.unsigned, 0x20 ≤ c.toNat := by
    intro c hc
    rcases List.mem_append.1 hc with hc | hc
    · exact ge_of_isDigit (h.whole_digits c hc)
    rcases List.mem_append.1 hc with hc | hc
    · exact hfraction c hc
    · exact hexponent c hc
  rw [NumberText.written] at hc
  split at hc
  · rcases List.mem_cons.1 hc with rfl | hc
    · decide
    · exact hunsigned c hc
  · exact hunsigned c hc

theorem mem_separated_ge {β : Type} {print : β → List Char} {bs : List β}
    (h : ∀ b ∈ bs, ∀ c ∈ print b, 0x20 ≤ c.toNat) :
    ∀ c ∈ Value.separated print bs, 0x20 ≤ c.toNat := by
  induction bs with
  | nil => exact fun c hc => absurd hc List.not_mem_nil
  | cons b bs ih =>
    cases bs with
    | nil => exact h b List.mem_cons_self
    | cons next bs =>
      intro c hc
      rw [Value.separated] at hc
      rcases List.mem_append.1 hc with hc | hc
      · exact h b List.mem_cons_self c hc
      rcases List.mem_cons.1 hc with rfl | hc
      · decide
      · exact ih (fun x hx => h x (List.mem_cons_of_mem b hx)) c hc

/-- **A printed value is one line.** -/
theorem Value.mem_print_ge (v : Value) : ∀ c ∈ v.print, 0x20 ≤ c.toNat := by
  induction v using Value.inductionOn with
  | null => rw [print]; simp
  | bool b => cases b <;> rw [print] <;> simp
  | integer n =>
    rw [print, printInt_eq_written]
    exact fun c hc => (integerText_proper n).mem_written_ge hc
  | real x =>
    rw [print, printReal_eq_written]
    exact fun c hc => (realText_proper x).mem_written_ge hc
  | string s =>
    rw [print]
    exact fun c hc => mem_printString_ge hc
  | array items ih =>
    intro c hc
    rw [print, printItems_eq_separated] at hc
    rcases List.mem_cons.1 hc with rfl | hc
    · decide
    rcases List.mem_append.1 hc with hc | hc
    · exact mem_separated_ge ih c hc
    · rw [List.mem_singleton.1 hc]
      decide
  | object fields ih =>
    intro c hc
    rw [print, printFields_eq_separated] at hc
    rcases List.mem_cons.1 hc with rfl | hc
    · decide
    rcases List.mem_append.1 hc with hc | hc
    · refine mem_separated_ge (fun f hf d hd => ?_) c hc
      rcases List.mem_append.1 hd with hd | hd
      · exact mem_printString_ge hd
      rcases List.mem_cons.1 hd with rfl | hd
      · decide
      · exact ih f hf d hd
    · rw [List.mem_singleton.1 hc]
      decide

end EnginePipe.Json
