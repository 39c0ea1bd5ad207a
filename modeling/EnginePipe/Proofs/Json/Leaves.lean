import EnginePipe.Json.Printer
import EnginePipe.Json.Reader

/-!
# Printed strings and numbers are read back

The leaves of a JSON text.  A printed string is read unit by unit, each character by the units that
the printer meant (`stringUnits_printChar`).  A number is printed in parts: a whole part, a fraction,
an exponent.  `NumberText.written` is the text of such parts, and every printed number is the text of
proper ones, so one lemma reads them all back.

* `stringBody_printed`: a printed string is read back.
* `numberText_written`: so are the parts of a number, when what follows does not go on with it.
* `number_printInt`: an integer in range is read back as that integer.
* `printReal_eq_written`: a real is printed as proper parts too.
-/

namespace EnginePipe.Json

/-! ### Strings -/

theorem units_of_lt {c : Char} (h : c.toNat < 0x10000) : Text.units c = [c.toNat] := by
  rw [Text.units, if_pos h]

theorem stringUnits_letter {e : Char} {u : Nat} (h : letterUnit? e = some u) (cs : List Char) :
    stringUnits ('\\' :: e :: cs) = (stringUnits cs).map fun r => (u :: r.1, r.2) := by
  have hne : e ≠ 'u' := by
    rintro rfl
    simp [letterUnit?] at h
  rw [stringUnits]
  · rw [h]
    cases stringUnits cs <;> rfl
  · intro a b c d rest he
    simp_all

theorem stringUnits_hex4 {u : Nat} (h : u < 0x10000) (cs : List Char) :
    stringUnits ('\\' :: 'u' :: (Text.hex4 u ++ cs)) =
      (stringUnits cs).map fun r => (u :: r.1, r.2) := by
  rw [Text.hex4, List.cons_append, List.cons_append, List.cons_append, List.cons_append,
    List.nil_append, stringUnits, ← Text.hex4, Text.ofHex?_hex4 h]
  cases stringUnits cs <;> rfl

theorem stringUnits_plain {c : Char} (hq : c ≠ '"') (hb : c ≠ '\\') (hc : ¬ c.toNat < 0x20)
    (cs : List Char) :
    stringUnits (c :: cs) = (stringUnits cs).map fun r => (Text.units c ++ r.1, r.2) := by
  rw [stringUnits]
  · rw [if_neg (by simp [hb, hc])]
    cases stringUnits cs <;> rfl
  all_goals simp_all

theorem stringUnits_printChar (c : Char) (cs : List Char) :
    stringUnits (printChar c ++ cs) =
      (stringUnits cs).map fun r => (Text.units c ++ r.1, r.2) := by
  unfold printChar
  split
  · next h => subst h; exact stringUnits_letter (by rfl) cs
  split
  · next h => subst h; exact stringUnits_letter (by rfl) cs
  split
  · next h => subst h; exact stringUnits_letter (by rfl) cs
  split
  · next h => subst h; exact stringUnits_letter (by rfl) cs
  split
  · next h => subst h; exact stringUnits_letter (by rfl) cs
  split
  · next h => rw [units_of_lt (by omega), h]; exact stringUnits_letter (by rfl) cs
  split
  · next h => rw [units_of_lt (by omega), h]; exact stringUnits_letter (by rfl) cs
  split
  · next h => rw [units_of_lt (by omega)]; exact stringUnits_hex4 (by omega) cs
  · next hq hb _ _ _ _ _ hc => exact stringUnits_plain hq hb hc cs

theorem stringUnits_printed (cs rest : List Char) :
    stringUnits (cs.flatMap printChar ++ '"' :: rest) = some (cs.flatMap Text.units, rest) := by
  induction cs with
  | nil => rw [List.flatMap_nil, List.nil_append, stringUnits]; rfl
  | cons c cs ih =>
    rw [List.flatMap_cons, List.append_assoc, stringUnits_printChar, ih]
    rfl

/-- **A printed string is read back.** -/
theorem stringBody_printed (s : String) (rest : List Char) :
    stringBody (s.toList.flatMap printChar ++ '"' :: rest) = some (s, rest) := by
  rw [stringBody, stringUnits_printed]
  simp [Text.ofUnits_units]

/-! ### Digits -/

theorem isDigit_of_mem_printNat {n : Nat} {d : Char} (h : d ∈ printNat n) : d.isDigit :=
  Nat.isDigit_of_mem_toDigits (by decide) (by decide) h

theorem digitChar_ne_zero : ∀ d, d < 10 → d ≠ 0 → Nat.digitChar d ≠ '0' := by decide

theorem printNat_of_lt {n : Nat} (h : n < 10) : printNat n = [Nat.digitChar n] :=
  Nat.toDigits_of_lt_base h

theorem printNat_of_ge {n : Nat} (h : 10 ≤ n) :
    printNat n = printNat (n / 10) ++ [Nat.digitChar (n % 10)] :=
  Nat.toDigits_of_base_le (by decide) h

theorem exists_printNat_of_pos {n : Nat} (h : n ≠ 0) :
    ∃ d ds, printNat n = d :: ds ∧ d ≠ '0' := by
  induction n using Nat.strongRecOn with
  | ind n ih =>
    by_cases hn : n < 10
    · exact ⟨Nat.digitChar n, [], printNat_of_lt hn, digitChar_ne_zero n hn h⟩
    · obtain ⟨d, ds, hd, h0⟩ := ih (n / 10) (by omega) (by omega)
      refine ⟨d, ds ++ [Nat.digitChar (n % 10)], ?_, h0⟩
      rw [printNat_of_ge (by omega), hd, List.cons_append]

/-- A printed natural number may stand before a point. -/
theorem isWhole_printNat (n : Nat) : isWhole (printNat n) := by
  by_cases h : n = 0
  · subst h; rfl
  · obtain ⟨d, ds, hd, h0⟩ := exists_printNat_of_pos h
    rw [hd]
    unfold isWhole
    split
    · contradiction
    · rfl
    · next h => simp only [List.cons.injEq] at h; simp [← h.1, h0]

theorem le_ofDigitChars (ds : List Char) (n : Nat) : n ≤ Nat.ofDigitChars 10 ds n := by
  induction ds generalizing n with
  | nil => simp
  | cons d ds ih =>
    rw [Nat.ofDigitChars_cons]
    have := ih (10 * n + (d.toNat - '0'.toNat))
    omega

theorem absorb_of_lt {ds : List Char} {n : Nat} (h : Nat.ofDigitChars 10 ds n < significandBound) :
    absorb n ds = (Nat.ofDigitChars 10 ds n, []) := by
  induction ds generalizing n with
  | nil => simp [absorb]
  | cons d ds ih =>
    rw [Nat.ofDigitChars_cons] at h ⊢
    have hle := le_ofDigitChars ds (10 * n + (d.toNat - '0'.toNat))
    rw [absorb, if_pos (show 10 * n + digitValue d < significandBound from by
      unfold digitValue; omega)]
    exact ih h

theorem ofDigitChars_printNat (n : Nat) : Nat.ofDigitChars 10 (printNat n) 0 = n :=
  Nat.ofDigitChars_toDigits (by decide) (by decide)

/-! ### Written numbers -/

/-- What may follow a number: nothing that would go on with it. -/
def EndsNumber (rest : List Char) : Prop :=
  ∀ c ∈ rest.head?, c.isDigit = false ∧ c ≠ '.' ∧ c ≠ 'e' ∧ c ≠ 'E'

theorem endsNumber_nil : EndsNumber [] := by intro c hc; simp at hc

theorem EndsNumber.noDigit {rest : List Char} (h : EndsNumber rest) :
    ∀ c ∈ rest.head?, c.isDigit = false := fun c hc => (h c hc).1

/-- The text of a fraction. -/
def writtenFraction : List Char → List Char
  | [] => []
  | ds => '.' :: ds

/-- The text of an exponent. -/
def writtenExponent : Option (Bool × List Char) → List Char
  | none => []
  | some (negative, ds) => 'e' :: (if negative then '-' else '+') :: ds

/-- The text of a number without its sign. -/
def NumberText.unsigned (t : NumberText) : List Char :=
  t.whole ++ (writtenFraction t.fraction ++ writtenExponent t.exponent)

/-- The parts of a number are made of digits, and there are digits where there have to be. -/
structure NumberText.Proper (t : NumberText) : Prop where
  whole : isWhole t.whole
  whole_digits : ∀ d ∈ t.whole, d.isDigit
  fraction_digits : ∀ d ∈ t.fraction, d.isDigit
  exponent_digits : ∀ e ∈ t.exponent, e.2 ≠ [] ∧ ∀ d ∈ e.2, d.isDigit

theorem exponentDigits_append {ds rest : List Char} (hn : ds ≠ []) (hd : ∀ d ∈ ds, d.isDigit)
    (hr : EndsNumber rest) (negative : Bool) :
    exponentDigits negative (ds ++ rest) = some (some (negative, ds), rest) := by
  rw [exponentDigits, digits_append hd hr.noDigit]
  cases ds with
  | nil => exact absurd rfl hn
  | cons d ds => rfl

theorem exponent_written {e : Option (Bool × List Char)} {rest : List Char}
    (h : ∀ p ∈ e, p.2 ≠ [] ∧ ∀ d ∈ p.2, d.isDigit) (hr : EndsNumber rest) :
    exponent (writtenExponent e ++ rest) = some (e, rest) := by
  cases e with
  | none =>
    rw [writtenExponent, List.nil_append]
    unfold exponent
    split
    · exact absurd rfl (hr 'e' (by simp)).2.2.1
    · exact absurd rfl (hr 'E' (by simp)).2.2.2
    · rfl
  | some p =>
    obtain ⟨negative, ds⟩ := p
    obtain ⟨hn, hd⟩ := h (negative, ds) rfl
    cases negative with
    | true => exact exponentDigits_append hn hd hr true
    | false => exact exponentDigits_append hn hd hr false

theorem head_writtenExponent (e : Option (Bool × List Char)) {rest : List Char}
    (hr : EndsNumber rest) :
    ∀ c ∈ (writtenExponent e ++ rest).head?, c.isDigit = false ∧ c ≠ '.' := by
  cases e with
  | none => intro c hc; exact ⟨(hr c hc).1, (hr c hc).2.1⟩
  | some p =>
    intro c hc
    simp only [writtenExponent, List.cons_append, List.head?_cons, Option.mem_some_iff] at hc
    subst hc
    exact ⟨by decide, by decide⟩

theorem fraction_written {ds rest : List Char} (hd : ∀ d ∈ ds, d.isDigit)
    (hr : ∀ c ∈ rest.head?, c.isDigit = false ∧ c ≠ '.') :
    fraction (writtenFraction ds ++ rest) = some (ds, rest) := by
  cases ds with
  | nil =>
    rw [writtenFraction, List.nil_append]
    unfold fraction
    split
    · exact absurd rfl (hr '.' (by simp)).2
    · rfl
  | cons d ds =>
    rw [writtenFraction, List.cons_append, fraction, digits_append hd (fun c hc => (hr c hc).1)]
    · rfl
    · simp

theorem head_writtenFraction (ds : List Char) {rest : List Char}
    (hr : ∀ c ∈ rest.head?, c.isDigit = false ∧ c ≠ '.') :
    ∀ c ∈ (writtenFraction ds ++ rest).head?, c.isDigit = false := by
  cases ds with
  | nil => intro c hc; exact (hr c hc).1
  | cons d ds =>
    intro c hc
    simp only [writtenFraction, List.cons_append, List.head?_cons, Option.mem_some_iff] at hc
    subst hc
    decide

theorem unsignedText_unsigned {t : NumberText} (h : t.Proper) {rest : List Char}
    (hr : EndsNumber rest) :
    unsignedText t.negative (t.unsigned ++ rest) = some (t, rest) := by
  have he := head_writtenExponent t.exponent hr
  have hf := head_writtenFraction t.fraction he
  unfold unsignedText
  rw [NumberText.unsigned, List.append_assoc, List.append_assoc, digits_append h.whole_digits hf]
  simp only [h.whole, if_true, fraction_written h.fraction_digits he,
    exponent_written h.exponent_digits hr, Option.bind_eq_bind, Option.bind_some]

/-- The text of a number. -/
def NumberText.written (t : NumberText) : List Char :=
  if t.negative then '-' :: t.unsigned else t.unsigned

theorem NumberText.Proper.head_ne {t : NumberText} (h : t.Proper) :
    ∃ d ds, t.unsigned = d :: ds ∧ d.isDigit := by
  obtain ⟨d, ds, hw⟩ : ∃ d ds, t.whole = d :: ds := by
    cases hw : t.whole with
    | nil => have := h.whole; rw [hw] at this; simp [isWhole] at this
    | cons d ds => exact ⟨d, ds, rfl⟩
  refine ⟨d, ds ++ (writtenFraction t.fraction ++ writtenExponent t.exponent), ?_, ?_⟩
  · rw [NumberText.unsigned, hw, List.cons_append]
  · exact h.whole_digits d (by rw [hw]; exact List.mem_cons_self)

/-- **A written number is read back.** -/
theorem numberText_written {t : NumberText} (h : t.Proper) {rest : List Char}
    (hr : EndsNumber rest) : numberText (t.written ++ rest) = some (t, rest) := by
  have hu := unsignedText_unsigned h hr
  obtain ⟨d, ds, hd, hdig⟩ := h.head_ne
  rw [NumberText.written]
  split
  · next hn => rw [hn] at hu; exact hu
  · next hn =>
    rw [Bool.not_eq_true] at hn
    rw [hn] at hu
    rw [hd, List.cons_append] at hu ⊢
    unfold numberText
    split
    · next h' => simp only [List.cons.injEq] at h'; rw [h'.1] at hdig; exact absurd hdig (by decide)
    · exact hu

theorem number_written {t : NumberText} (h : t.Proper) {rest : List Char} (hr : EndsNumber rest) :
    number (t.written ++ rest) = t.value.map fun v => (v, rest) := by
  rw [number, numberText_written h hr]
  show (t.value.bind fun v => some (v, rest)) = _
  cases t.value <;> rfl

/-! ### Integers -/

/-- The parts of an integer. -/
def integerText (n : Int) : NumberText := ⟨decide (n < 0), printNat n.natAbs, [], none⟩

theorem integerText_proper (n : Int) : (integerText n).Proper where
  whole := isWhole_printNat _
  whole_digits := fun _ h => isDigit_of_mem_printNat h
  fraction_digits := by intro d hd; simp [integerText] at hd
  exponent_digits := by intro e he; simp [integerText] at he

theorem printInt_eq_written (n : Int) : printInt n = (integerText n).written := by
  simp [printInt, integerText, NumberText.written, NumberText.unsigned, writtenFraction, writtenExponent]

theorem value_integerText {n : Int} (hl : minInteger ≤ n) (hu : n ≤ maxInteger) :
    (integerText n).value = some (.integer n) := by
  have hb : Nat.ofDigitChars 10 (printNat n.natAbs) 0 < significandBound := by
    rw [ofDigitChars_printNat]
    simp only [minInteger, maxInteger, significandBound] at *
    omega
  simp only [minInteger] at hl
  rw [NumberText.value, integerText]
  simp only [absorb_of_lt hb, ofDigitChars_printNat]
  by_cases hn : n < 0
  · rw [if_pos ⟨trivial, trivial, trivial, Or.inr ⟨by omega, by simp only [minInteger]; omega⟩⟩]
    simp only [decide_eq_true hn, if_true]
    rw [show -(n.natAbs : Int) = n by omega]
  · rw [if_pos ⟨trivial, trivial, trivial, Or.inl (by simp [hn])⟩]
    simp only [decide_eq_false hn, Bool.false_eq_true, if_false]
    rw [show (n.natAbs : Int) = n by omega]

/-- **A printed integer in range is read back.** -/
theorem number_printInt {n : Int} (hl : minInteger ≤ n) (hu : n ≤ maxInteger) {rest : List Char}
    (hr : EndsNumber rest) : number (printInt n ++ rest) = some (.integer n, rest) := by
  rw [printInt_eq_written, number_written (integerText_proper n) hr, value_integerText hl hu]
  rfl

/-! ### Reals -/

theorem isWhole_of_ne_zero {d : Char} (h : d ≠ '0') (ds : List Char) : isWhole (d :: ds) := by
  unfold isWhole
  split
  · contradiction
  · rfl
  · next he => simp only [List.cons.injEq] at he; simp [← he.1, h]

/-- The parts that a layout gives a decimal. -/
def RealLayout.text (layout : RealLayout) (d : Real.Decimal) : NumberText :=
  let digits := printNat d.digits
  let leading := d.exponent + digits.length - 1
  if d.digits = 0 then ⟨false, ['0'], ['0'], none⟩
  else if layout.lowest ≤ leading ∧ leading ≤ layout.highest then
    if 0 ≤ d.exponent then ⟨false, digits ++ List.replicate d.exponent.toNat '0', ['0'], none⟩
    else if 0 ≤ leading then
      ⟨false, digits.take (leading.toNat + 1), digits.drop (leading.toNat + 1), none⟩
    else ⟨false, ['0'], List.replicate ((-leading).toNat - 1) '0' ++ digits, none⟩
  else ⟨false, digits.take 1, digits.tail, some (decide (leading < 0), printNat leading.natAbs)⟩

theorem writtenFraction_of_ne_nil {ds : List Char} (h : ds ≠ []) : writtenFraction ds = '.' :: ds := by
  cases ds with
  | nil => exact absurd rfl h
  | cons d ds => rfl

theorem RealLayout.print_eq_unsigned (layout : RealLayout) (d : Real.Decimal) :
    layout.print d = (layout.text d).unsigned := by
  have hn : printNat d.digits ≠ [] := Nat.toDigits_ne_nil
  unfold RealLayout.print RealLayout.text
  dsimp only
  split
  · rfl
  split
  · split
    · simp [NumberText.unsigned, writtenFraction, writtenExponent]
    split
    · next h0 h1 =>
      have hd : (printNat d.digits).drop ((d.exponent + (printNat d.digits).length - 1).toNat + 1) ≠ [] := by
        intro h
        rw [List.drop_eq_nil_iff] at h
        omega
      show _ = _ ++ (writtenFraction _ ++ [])
      rw [writtenFraction_of_ne_nil hd, List.append_nil]
    · have hd : List.replicate ((-(d.exponent + (printNat d.digits).length - 1)).toNat - 1) '0'
          ++ printNat d.digits ≠ [] := by simp [hn]
      show _ = ['0'] ++ (writtenFraction _ ++ [])
      rw [writtenFraction_of_ne_nil hd, List.append_nil]
      rfl
  · cases ht : (printNat d.digits).tail with
    | nil => simp [NumberText.unsigned, writtenFraction, writtenExponent]
    | cons c cs => simp [NumberText.unsigned, writtenFraction, writtenExponent]

theorem RealLayout.text_proper (layout : RealLayout) (d : Real.Decimal) :
    (layout.text d).Proper := by
  unfold RealLayout.text
  dsimp only
  split
  · exact ⟨by decide, by simp, by simp, by simp⟩
  next h0 =>
  obtain ⟨c, cs, hc, hne⟩ := exists_printNat_of_pos h0
  have hdig : ∀ e ∈ c :: cs, e.isDigit := fun e he => isDigit_of_mem_printNat (hc ▸ he)
  have hzero (n : Nat) : ∀ e ∈ List.replicate n '0', e.isDigit := fun e he => by
    rw [(List.mem_replicate.1 he).2]; decide
  have hone : ∀ e ∈ ['0'], e.isDigit := hzero 1
  rw [hc]
  split
  · split
    · refine ⟨isWhole_of_ne_zero hne _, ?_, hone, by simp⟩
      intro e he
      rcases List.mem_append.1 he with he | he
      · exact hdig e he
      · exact hzero _ e he
    split
    · refine ⟨isWhole_of_ne_zero hne _, ?_, ?_, by simp⟩
      · exact fun e he => hdig e (List.mem_of_mem_take he)
      · exact fun e he => hdig e (List.mem_of_mem_drop he)
    · refine ⟨rfl, hone, ?_, by simp⟩
      intro e he
      rcases List.mem_append.1 he with he | he
      · exact hzero _ e he
      · exact hdig e he
  · refine ⟨isWhole_of_ne_zero hne _, ?_, ?_, ?_⟩
    · exact fun e he => hdig e (List.mem_of_mem_take he)
    · exact fun e he => hdig e (List.mem_of_mem_tail he)
    · intro p hp
      simp only [Option.mem_some_iff] at hp
      subst hp
      exact ⟨Nat.toDigits_ne_nil, fun e he => isDigit_of_mem_printNat he⟩

/-- The parts of a printed real. -/
def realText (x : Real.Binary64) : NumberText :=
  { realLayout.text x.magnitude.shortest with negative := x.negative }

theorem realText_proper (x : Real.Binary64) : (realText x).Proper :=
  have h := realLayout.text_proper x.magnitude.shortest
  ⟨h.whole, h.whole_digits, h.fraction_digits, h.exponent_digits⟩

theorem printReal_eq_written (x : Real.Binary64) : printReal x = (realText x).written := by
  rw [printReal, realLayout.print_eq_unsigned]
  rfl

end EnginePipe.Json
