import EnginePipe.Proofs.Json.Grammar.Completeness
import EnginePipe.Proofs.Json.Grammar.Soundness
import EnginePipe.Proofs.Json.Legible

/-!
# Whole texts

A text is read exactly if the grammar has it and it nests deep enough at most.  An array without containers
in it nests one deep, so no bound is left of it.

* `read?_eq_some_iff`: **what is read is the text of a value**.
* `isScalar_integer_iff`: which texts write an integer.
* `IsText.read_array`: an array of scalars is read, however its text came about.
-/

namespace EnginePipe.Json

/-! ### Whole texts -/

/-- **What is read is the text of a value that nests deep enough.** -/
theorem read?_eq_some_iff {text : String} {v : Value} :
    read? text = some v ↔ IsPadded (IsValue maxNesting) text.toList v := by
  unfold read? readChars?
  constructor
  · intro h
    obtain ⟨⟨w, rest⟩, hw, hrest⟩ := Option.bind_eq_some_iff.1 h
    obtain ⟨before, cs, hcs, hbefore, hvalue⟩ := value_sound maxNesting hw
    obtain ⟨after, hafter, hsplit⟩ := exists_spaces rest
    dsimp only at hrest
    split at hrest
    · next hempty =>
      cases hrest
      rw [List.isEmpty_iff.1 hempty, List.append_nil] at hsplit
      rw [hsplit] at hcs
      exact ⟨before, cs, after, hcs, hbefore, hvalue, hafter⟩
    · cases hrest
  · rintro ⟨before, cs, after, hcs, hbefore, hvalue, hafter⟩
    have hend : EndsNumber after := by
      have := endsNumber_nil.of_spaces hafter
      rwa [List.append_nil] at this
    have hskip : skipSpace after = [] := by
      have := skipSpace_spaces hafter []
      rwa [List.append_nil] at this
    rw [hcs, value_complete maxNesting hbefore hvalue hend]
    simp only [Option.bind_eq_bind, Option.bind_some, hskip, List.isEmpty_nil, if_true]

/-! ### Integers -/

theorem absorb_eq_of_nil {n : Nat} {ds : List Char} (h : (absorb n ds).2 = []) :
    (absorb n ds).1 = Nat.ofDigitChars 10 ds n := by
  induction ds generalizing n with
  | nil => simp [absorb]
  | cons d ds ih =>
    rw [absorb] at h ⊢
    split at h
    · next hlt =>
      rw [if_pos hlt, ih h, Nat.ofDigitChars_cons, digitValue]
    · cases h

/-- The parts that write an integer. -/
theorem NumberText.value_eq_integer_iff {t : NumberText} {n : Int} :
    t.value = some (.integer n) ↔ t.fraction = [] ∧ t.exponent = none ∧ minInteger ≤ n ∧ n ≤ maxInteger ∧
      (t.negative = false ∧ n = Nat.ofDigitChars 10 t.whole 0 ∨
        t.negative = true ∧ n = -Nat.ofDigitChars 10 t.whole 0 ∧ n ≠ 0) := by
  have hlt := absorb_lt (s := 0) (by decide) t.whole
  rw [significandBound] at hlt
  constructor
  · intro h
    unfold NumberText.value at h
    dsimp only at h
    split at h
    · next hint =>
      obtain ⟨hf, he, hd, hsign⟩ := hint
      rw [absorb_eq_of_nil hd] at h hsign hlt
      simp only [Option.some.injEq, Value.integer.injEq] at h
      simp only [minInteger, maxInteger] at hsign ⊢
      refine ⟨hf, he, ?_⟩
      cases hn : t.negative with
      | false =>
        rw [hn] at h
        simp only [Bool.false_eq_true, if_false] at h
        exact ⟨by omega, by omega, Or.inl ⟨rfl, h.symm⟩⟩
      | true =>
        rw [hn] at h hsign
        simp only [Bool.true_eq_false, false_or, if_true] at h hsign
        exact ⟨by omega, by omega, Or.inr ⟨rfl, h.symm, by omega⟩⟩
    · obtain ⟨m, _, hm⟩ := Option.map_eq_some_iff.1 h
      cases hm
  · rintro ⟨hf, he, hl, hu, hn⟩
    simp only [minInteger, maxInteger] at hl hu
    have hb : Nat.ofDigitChars 10 t.whole 0 < significandBound := by
      rw [significandBound]
      omega
    unfold NumberText.value
    simp only [absorb_of_lt hb, minInteger]
    rcases hn with ⟨hn, rfl⟩ | ⟨hn, rfl, hne⟩
    · rw [if_pos ⟨hf, he, trivial, Or.inl hn⟩, hn]
      rfl
    · rw [if_pos ⟨hf, he, trivial, Or.inr ⟨by omega, by omega⟩⟩, hn]
      rfl

theorem isUnsigned_integer_iff {cs : List Char} {t : NumberText} (hf : t.fraction = [])
    (he : t.exponent = none) :
    IsUnsigned cs t ↔ cs = t.whole ∧ isWhole t.whole ∧ ∀ d ∈ t.whole, d.isDigit := by
  constructor
  · rintro ⟨fraction, exponent, rfl, hw, hd, hfraction, hexponent⟩
    rw [hf] at hfraction
    rw [he] at hexponent
    rw [hfraction.eq_written.1]
    cases hexponent
    exact ⟨List.append_nil _, hw, hd⟩
  · rintro ⟨rfl, hw, hd⟩
    refine ⟨[], [], (List.append_nil _).symm, hw, hd, ?_, ?_⟩
    · rw [hf]
      exact .none
    · rw [he]
      exact .none

/-- **Which texts write an integer.** -/
theorem isScalar_integer_iff {cs : List Char} {n : Int} : IsScalar cs (.integer n) ↔ IsIntegerText cs n := by
  constructor
  · rintro ⟨⟩
    next t ht hv =>
    obtain ⟨hf, he, hl, hu, hn⟩ := NumberText.value_eq_integer_iff.1 hv
    refine ⟨hl, hu, t.whole, ?_⟩
    cases ht with
    | plain hs h =>
      obtain ⟨hcs, hw, hd⟩ := (isUnsigned_integer_iff hf he).1 h
      rw [hs] at hn
      simp only [true_and, Bool.false_eq_true, false_and, or_false] at hn
      exact ⟨hw, hd, Or.inl ⟨hcs, hn⟩⟩
    | minus hs h =>
      obtain ⟨rfl, hw, hd⟩ := (isUnsigned_integer_iff hf he).1 h
      rw [hs] at hn
      simp only [Bool.true_eq_false, false_and, true_and, false_or] at hn
      exact ⟨hw, hd, Or.inr ⟨rfl, hn⟩⟩
  · rintro ⟨hl, hu, ds, hw, hd, ⟨rfl, hn⟩ | ⟨rfl, hn⟩⟩
    · refine .number (.plain (t := ⟨false, cs, [], none⟩) rfl ((isUnsigned_integer_iff rfl rfl).2 ⟨rfl, hw, hd⟩)) ?_
      exact NumberText.value_eq_integer_iff.2 ⟨rfl, rfl, hl, hu, Or.inl ⟨rfl, hn⟩⟩
    · refine .number (.minus (t := ⟨true, ds, [], none⟩) rfl ((isUnsigned_integer_iff rfl rfl).2 ⟨rfl, hw, hd⟩)) ?_
      exact NumberText.value_eq_integer_iff.2 ⟨rfl, rfl, hl, hu, Or.inr ⟨rfl, hn⟩⟩

/-! ### Nesting -/

section

variable {α : Type} {P Q : List Char → α → Prop} {cs : List Char}

theorem IsPadded.mono {x : α} (h : IsPadded P cs x) (hPQ : ∀ text, P text x → Q text x) :
    IsPadded Q cs x := by
  obtain ⟨before, text, after, hcs, hbefore, hP, hafter⟩ := h
  exact ⟨before, text, after, hcs, hbefore, hPQ text hP, hafter⟩

theorem IsInside.mono {xs : List α} (h : IsInside P cs xs) (hPQ : ∀ x ∈ xs, ∀ text, P text x → Q text x) :
    IsInside Q cs xs := by
  cases h with
  | empty h => exact .empty h
  | members h =>
    refine .members ?_
    induction h with
    | last h => exact .last (h.mono (hPQ _ List.mem_cons_self))
    | cons h hs ih =>
      have hrest := ih fun x hx => hPQ x (List.mem_cons_of_mem _ hx)
      exact .cons (h.mono (hPQ _ List.mem_cons_self)) hrest

end

/-- A value that holds no other. -/
def Value.isScalar : Value → Bool
  | .array _ => false
  | .object _ => false
  | _ => true

theorem IsScalar.isScalar {cs : List Char} {v : Value} (h : IsScalar cs v) : v.isScalar := by
  cases h with
  | null => rfl
  | yes => rfl
  | no => rfl
  | string _ => rfl
  | number _ hv =>
    unfold NumberText.value at hv
    dsimp only at hv
    split at hv
    · cases hv
      rfl
    · obtain ⟨m, _, rfl⟩ := Option.map_eq_some_iff.1 hv
      rfl

theorem isValue_iff_of_isScalar {v : Value} (hv : v.isScalar) {depth : Nat} {text : List Char} :
    IsValue depth text v ↔ IsScalar text v := by
  cases depth with
  | zero => rfl
  | succ depth =>
    constructor
    · rintro (h | ⟨inside, items, _, _, rfl⟩ | ⟨inside, fields, _, _, rfl⟩)
      · exact h
      · cases hv
      · cases hv
    · exact Or.inl

/-- A text of an array without containers in it nests one deep. -/
theorem IsText.read_array {text : String} {items : List Value} (h : IsText text (.array items))
    (hi : ∀ item ∈ items, item.isScalar) : read? text = some (.array items) := by
  obtain ⟨depth, h⟩ := h
  refine read?_eq_some_iff.2 (h.mono fun cs hcs => ?_)
  cases depth with
  | zero => cases IsScalar.isScalar hcs
  | succ depth =>
    rcases hcs with hcs | ⟨inside, items', rfl, hinside, hitems⟩ | ⟨inside, fields, _, _, hobject⟩
    · cases hcs.isScalar
    · cases hitems
      refine Or.inr (Or.inl ⟨inside, items, rfl, hinside.mono fun item hm text ht => ?_, rfl⟩)
      exact (isValue_iff_of_isScalar (hi item hm)).2 ((isValue_iff_of_isScalar (hi item hm)).1 ht)
    · cases hobject

theorem IsText.of_read {text : String} {v : Value} (h : read? text = some v) : IsText text v :=
  ⟨maxNesting, read?_eq_some_iff.1 h⟩

end EnginePipe.Json
