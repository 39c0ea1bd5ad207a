import EnginePipe.Json.Grammar
import EnginePipe.Proofs.Json.Extension
import Mathlib.Data.List.Basic
import Mathlib.Data.List.TakeWhile

/-!
# What is read is of the grammar

One lemma for each reader, in the order of the readers: what it takes off the front of a text is of the
grammar, and the rest is left as it was.  A container is read by the reader of its members, so its lemma
asks of that reader that it reads nothing else (`ReadsOnly`).

* `value_sound`: **what is read off the front of a text is the text of the value read**.
-/

namespace EnginePipe.Json

/-! ### What is read off the front -/

theorem exists_spaces (cs : List Char) : ∃ before, IsSpaces before ∧ cs = before ++ skipSpace cs := by
  refine ⟨cs.takeWhile isSpace, ?_, List.takeWhile_append_dropWhile.symm⟩
  intro c hc
  exact List.mem_takeWhile_imp hc

theorem digits_sound (cs : List Char) :
    (∀ d ∈ (digits cs).1, d.isDigit) ∧ cs = (digits cs).1 ++ (digits cs).2 := by
  refine ⟨?_, List.takeWhile_append_dropWhile.symm⟩
  intro d hd
  exact List.mem_takeWhile_imp hd

theorem isDigits_digits {cs : List Char} (h : ¬ (digits cs).1.isEmpty) : IsDigits (digits cs).1 := by
  refine ⟨?_, (digits_sound cs).1⟩
  intro hn
  rw [hn] at h
  exact h rfl

theorem fraction_sound {cs ds rest : List Char} (h : fraction cs = some (ds, rest)) :
    ∃ text, cs = text ++ rest ∧ IsFraction text ds := by
  unfold fraction at h
  split at h
  · next cs =>
    split at h
    · cases h
    · next hn =>
      have hcs := (digits_sound cs).2
      have hds := isDigits_digits hn
      simp only [Option.some.injEq, Prod.ext_iff] at h
      rw [h.1] at hds hcs
      rw [h.2] at hcs
      exact ⟨'.' :: ds, congrArg ('.' :: ·) hcs, .some hds⟩
  · cases h
    exact ⟨[], rfl, .none⟩

theorem exponentDigits_sound {negative : Bool} {cs rest : List Char} {e : Option (Bool × List Char)}
    (h : exponentDigits negative cs = some (e, rest)) :
    ∃ ds, cs = ds ++ rest ∧ IsDigits ds ∧ e = some (negative, ds) := by
  unfold exponentDigits at h
  split at h
  · cases h
  · next hn =>
    have hcs := (digits_sound cs).2
    have hds := isDigits_digits hn
    simp only [Option.some.injEq, Prod.mk.injEq] at h
    rw [h.2] at hcs
    exact ⟨(digits cs).1, hcs, hds, h.1.symm⟩

theorem signedExponent_sound {cs rest : List Char} {e : Option (Bool × List Char)}
    (h : signedExponent cs = some (e, rest)) :
    ∃ sign negative ds, cs = sign ++ (ds ++ rest) ∧ IsExponentSign sign negative ∧ IsDigits ds ∧
      e = some (negative, ds) := by
  unfold signedExponent at h
  split at h
  · obtain ⟨ds, rfl, hd, he⟩ := exponentDigits_sound h
    exact ⟨['+'], false, ds, rfl, .plus, hd, he⟩
  · obtain ⟨ds, rfl, hd, he⟩ := exponentDigits_sound h
    exact ⟨['-'], true, ds, rfl, .minus, hd, he⟩
  · obtain ⟨ds, rfl, hd, he⟩ := exponentDigits_sound h
    exact ⟨[], false, ds, rfl, .none, hd, he⟩

theorem exponent_sound {cs rest : List Char} {e : Option (Bool × List Char)}
    (h : exponent cs = some (e, rest)) : ∃ text, cs = text ++ rest ∧ IsExponent text e := by
  have key : ∀ letter cs, letter = 'e' ∨ letter = 'E' → signedExponent cs = some (e, rest) →
      ∃ text, letter :: cs = text ++ rest ∧ IsExponent text e := by
    intro letter cs hl hs
    obtain ⟨sign, negative, ds, rfl, hsign, hd, rfl⟩ := signedExponent_sound hs
    refine ⟨letter :: (sign ++ ds), ?_, .some hl hsign hd⟩
    rw [List.cons_append, List.append_assoc]
  unfold exponent at h
  split at h
  · next cs => exact key 'e' cs (Or.inl rfl) h
  · next cs => exact key 'E' cs (Or.inr rfl) h
  · cases h
    exact ⟨[], rfl, .none⟩

theorem unsignedText_sound {negative : Bool} {cs rest : List Char} {t : NumberText}
    (h : unsignedText negative cs = some (t, rest)) :
    t.negative = negative ∧ ∃ text, cs = text ++ rest ∧ IsUnsigned text t := by
  unfold unsignedText at h
  simp only [Option.bind_eq_bind] at h
  split at h
  · next hw =>
    obtain ⟨⟨ds, cs₁⟩, hf, h⟩ := Option.bind_eq_some_iff.1 h
    obtain ⟨⟨e, cs₂⟩, hx, h⟩ := Option.bind_eq_some_iff.1 h
    obtain ⟨hd, hcs⟩ := digits_sound cs
    obtain ⟨fraction, hcs₁, hfraction⟩ := fraction_sound hf
    obtain ⟨exponent, rfl, hexponent⟩ := exponent_sound hx
    cases h
    refine ⟨rfl, (digits cs).1 ++ (fraction ++ exponent), ?_, fraction, exponent, rfl, hw, hd, hfraction,
      hexponent⟩
    rw [hcs₁] at hcs
    simpa only [List.append_assoc] using hcs
  · cases h

theorem numberText_sound {cs rest : List Char} {t : NumberText} (h : numberText cs = some (t, rest)) :
    ∃ text, cs = text ++ rest ∧ IsNumberText text t := by
  unfold numberText at h
  split at h
  · obtain ⟨hn, text, rfl, ht⟩ := unsignedText_sound h
    exact ⟨'-' :: text, rfl, .minus hn ht⟩
  · obtain ⟨hn, text, rfl, ht⟩ := unsignedText_sound h
    exact ⟨text, rfl, .plain hn ht⟩

theorem number_sound {cs rest : List Char} {v : Value} (h : number cs = some (v, rest)) :
    ∃ text, cs = text ++ rest ∧ IsScalar text v := by
  unfold number at h
  obtain ⟨⟨t, cs₁⟩, ht, h⟩ := Option.bind_eq_some_iff.1 h
  obtain ⟨w, hw, h⟩ := Option.bind_eq_some_iff.1 h
  cases h
  obtain ⟨text, rfl, hn⟩ := numberText_sound ht
  exact ⟨text, rfl, .number hn hw⟩

theorem stringUnits_sound {cs rest : List Char} {us : List Nat} (h : stringUnits cs = some (us, rest)) :
    ∃ inside, cs = inside ++ '"' :: rest ∧ StringInside inside us := by
  fun_induction stringUnits cs generalizing us rest with
  | case1 => cases h
  | case2 cs =>
    cases h
    exact ⟨[], rfl, .nil⟩
  | case3 a b c d cs ih =>
    obtain ⟨u, hu, h⟩ := Option.bind_eq_some_iff.1 h
    obtain ⟨⟨vs, cs₁⟩, hs, h⟩ := Option.bind_eq_some_iff.1 h
    cases h
    obtain ⟨inside, rfl, hi⟩ := ih hs
    exact ⟨'\\' :: 'u' :: a :: b :: c :: d :: inside, rfl, .unit hu hi⟩
  | case4 c cs _ ih =>
    obtain ⟨u, hu, h⟩ := Option.bind_eq_some_iff.1 h
    obtain ⟨⟨vs, cs₁⟩, hs, h⟩ := Option.bind_eq_some_iff.1 h
    cases h
    obtain ⟨inside, rfl, hi⟩ := ih hs
    exact ⟨'\\' :: c :: inside, rfl, .letter hu hi⟩
  | case5 => cases h
  | case6 c cs hq _ _ hc ih =>
    obtain ⟨⟨vs, cs₁⟩, hs, h⟩ := Option.bind_eq_some_iff.1 h
    cases h
    obtain ⟨inside, rfl, hi⟩ := ih hs
    rw [not_or] at hc
    exact ⟨c :: inside, rfl, .plain hq hc.2 (Nat.le_of_not_lt hc.1) hi⟩

theorem stringBody_sound {cs rest : List Char} {s : String} (h : stringBody cs = some (s, rest)) :
    ∃ text, '"' :: cs = text ++ rest ∧ IsString text s := by
  unfold stringBody at h
  obtain ⟨⟨us, cs₁⟩, hs, h⟩ := Option.bind_eq_some_iff.1 h
  obtain ⟨text, ht, h⟩ := Option.bind_eq_some_iff.1 h
  cases h
  obtain ⟨inside, rfl, hi⟩ := stringUnits_sound hs
  refine ⟨'"' :: (inside ++ ['"']), ?_, inside, us, rfl, hi, ?_⟩
  · rw [List.cons_append, List.append_assoc]
    rfl
  · rw [ht, String.toList_ofList]

theorem word_sound {α : Type} {w : List Char} {result x : α} {cs rest : List Char}
    (h : word w result cs = some (x, rest)) : x = result ∧ cs = w ++ rest := by
  obtain ⟨tail, ht, he⟩ := Option.map_eq_some_iff.1 h
  cases he
  exact ⟨rfl, (List.isPrefixOf?_eq_some_iff_append_eq.1 ht).symm⟩

theorem scalar_sound {cs rest : List Char} {v : Value} (h : scalar cs = some (v, rest)) :
    ∃ text, cs = text ++ rest ∧ IsScalar text v := by
  unfold scalar at h
  split at h
  · obtain ⟨⟨s, cs₁⟩, hs, he⟩ := Option.map_eq_some_iff.1 h
    cases he
    obtain ⟨text, ht, hstring⟩ := stringBody_sound hs
    exact ⟨text, ht, .string hstring⟩
  · obtain ⟨rfl, rfl⟩ := word_sound h
    exact ⟨['n', 'u', 'l', 'l'], rfl, .null⟩
  · obtain ⟨rfl, rfl⟩ := word_sound h
    exact ⟨['t', 'r', 'u', 'e'], rfl, .yes⟩
  · obtain ⟨rfl, rfl⟩ := word_sound h
    exact ⟨['f', 'a', 'l', 's', 'e'], rfl, .no⟩
  · exact number_sound h

/-! ### Containers that are read -/

/-- What a reader takes off the front has spaces before it and is of the grammar. -/
def ReadsOnly {α : Type} (reader : Reader α) (P : List Char → α → Prop) : Prop :=
  ∀ ⦃cs : List Char⦄ ⦃x : α⦄ ⦃rest : List Char⦄, reader cs = some (x, rest) →
    ∃ before text, cs = before ++ (text ++ rest) ∧ IsSpaces before ∧ P text x

section

variable {α : Type} {item : Reader α} {P : List Char → α → Prop} (hi : ReadsOnly item P) {close : Char}

include hi

theorem sequence_sound {fuel : Nat} {cs rest : List Char} {xs : List α}
    (h : sequence item close fuel cs = some (xs, rest)) :
    ∃ inside, cs = inside ++ close :: rest ∧ IsSeparated (IsPadded P) inside xs := by
  induction fuel generalizing cs xs with
  | zero => cases h
  | succ fuel ih =>
    rw [sequence] at h
    obtain ⟨⟨x, cs₁⟩, hx, hread⟩ := Option.bind_eq_some_iff.1 h
    obtain ⟨before, text, rfl, hbefore, hP⟩ := hi hx
    obtain ⟨after, hafter, hcs₁⟩ := exists_spaces cs₁
    have hpadded : IsPadded P (before ++ (text ++ after)) x :=
      ⟨before, text, after, rfl, hbefore, hP, hafter⟩
    dsimp only at hread
    split at hread
    · cases hread
    · next c cs₂ hs =>
      rw [hs] at hcs₁
      split at hread
      · next hc =>
        obtain ⟨⟨ys, cs₃⟩, hys, he⟩ := Option.bind_eq_some_iff.1 hread
        cases he
        obtain ⟨inside, rfl, hinside⟩ := ih hys
        refine ⟨_, ?_, .cons hpadded hinside⟩
        rw [hcs₁, hc]
        simp only [List.append_assoc, List.cons_append]
      · split at hread
        · next hc =>
          cases hread
          refine ⟨_, ?_, .last hpadded⟩
          rw [hcs₁, hc]
          simp only [List.append_assoc]
        · cases hread

theorem enclosed_sound {cs rest : List Char} {xs : List α} (h : enclosed item close cs = some (xs, rest)) :
    ∃ inside, cs = inside ++ close :: rest ∧ IsInside P inside xs := by
  unfold enclosed at h
  obtain ⟨before, hbefore, hcs⟩ := exists_spaces cs
  split at h
  · cases h
  · next c cs₁ hs =>
    split at h
    · next hc =>
      cases h
      rw [hs, hc] at hcs
      exact ⟨before, hcs, .empty hbefore⟩
    · obtain ⟨inside, hinside, hsep⟩ := sequence_sound hi h
      exact ⟨inside, hinside, .members hsep⟩

theorem field_sound : ReadsOnly (field item) (IsField P) := by
  intro cs f rest h
  unfold field at h
  obtain ⟨before, hbefore, hcs⟩ := exists_spaces cs
  split at h
  · next cs₁ hs =>
    obtain ⟨⟨key, cs₂⟩, hk, h⟩ := Option.bind_eq_some_iff.1 h
    obtain ⟨keyText, hkey, hstring⟩ := stringBody_sound hk
    obtain ⟨gap, hgap, hcs₂⟩ := exists_spaces cs₂
    dsimp only at h
    split at h
    · next cs₃ hs' =>
      obtain ⟨⟨x, cs₄⟩, hx, h⟩ := Option.bind_eq_some_iff.1 h
      cases h
      obtain ⟨after, text, rfl, hafter, hP⟩ := hi hx
      refine ⟨before, keyText ++ (gap ++ ':' :: (after ++ text)), ?_, hbefore, keyText, gap, after, text, rfl,
        hstring, hgap, hafter, hP⟩
      rw [hcs, hs, hkey, hcs₂, hs']
      simp only [List.append_assoc, List.cons_append]
    · cases h
  · cases h

end

/-- **What is read off the front of a text is of the grammar.** -/
theorem value_sound (depth : Nat) : ReadsOnly (value depth) (IsValue depth) := by
  have hscalar : ∀ cs rest v, scalar (skipSpace cs) = some (v, rest) →
      ∃ before text, cs = before ++ (text ++ rest) ∧ IsSpaces before ∧ IsScalar text v := by
    intro cs rest v h
    obtain ⟨before, hbefore, hcs⟩ := exists_spaces cs
    obtain ⟨text, ht, hs⟩ := scalar_sound h
    rw [ht] at hcs
    exact ⟨before, text, hcs, hbefore, hs⟩
  induction depth with
  | zero =>
    intro cs v rest h
    exact hscalar cs rest v h
  | succ depth ih =>
    intro cs v rest h
    rw [value] at h
    dsimp only at h
    obtain ⟨before, hbefore, hcs⟩ := exists_spaces cs
    split at h
    · next cs₁ hs =>
      obtain ⟨⟨items, cs₂⟩, hitems, he⟩ := Option.map_eq_some_iff.1 h
      cases he
      obtain ⟨inside, rfl, hinside⟩ := enclosed_sound ih hitems
      refine ⟨before, '[' :: (inside ++ [']']), ?_, hbefore, Or.inr (Or.inl ⟨inside, items, rfl, hinside, rfl⟩)⟩
      rw [hcs, hs]
      simp only [List.append_assoc, List.cons_append, List.nil_append]
    · next cs₁ hs =>
      obtain ⟨⟨fields, cs₂⟩, hfields, he⟩ := Option.map_eq_some_iff.1 h
      cases he
      obtain ⟨inside, rfl, hinside⟩ := enclosed_sound (field_sound ih) hfields
      refine ⟨before, '\x7b' :: (inside ++ ['\x7d']), ?_, hbefore,
        Or.inr (Or.inr ⟨inside, fields, rfl, hinside, rfl⟩)⟩
      rw [hcs, hs]
      simp only [List.append_assoc, List.cons_append, List.nil_append]
    · obtain ⟨before', text, hcs', hbefore', hs⟩ := hscalar cs rest v h
      exact ⟨before', text, hcs', hbefore', Or.inl hs⟩

end EnginePipe.Json
