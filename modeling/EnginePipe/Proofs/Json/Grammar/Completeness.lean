import EnginePipe.Json.Grammar
import EnginePipe.Proofs.Json.ReadBack

/-!
# All of the grammar is read

The other direction: each reader takes all that the grammar has off the front of a text, if nothing behind
it goes on with a number (`ReadsAll`).  A number and a word show by their first character that they are
neither spaces nor the end of a container; this is what lets a container go on to its next member.

* `value_complete`: **the text of a value is read as that value**, at the depth to which it nests.
-/

namespace EnginePipe.Json

/-! ### The leaves of a text -/

theorem skipSpace_spaces {before : List Char} (h : IsSpaces before) (cs : List Char) :
    skipSpace (before ++ cs) = skipSpace cs := List.dropWhile_append_of_pos h

theorem EndsNumber.of_spaces {after rest : List Char} (ha : IsSpaces after) (hr : EndsNumber rest) :
    EndsNumber (after ++ rest) := by
  intro c hc
  cases after with
  | nil => exact hr c hc
  | cons d after =>
    simp only [List.cons_append, List.head?_cons, Option.mem_some_iff] at hc
    subst hc
    have hd := ha d List.mem_cons_self
    simp only [isSpace, Bool.or_eq_true, decide_eq_true_eq] at hd
    rcases hd with ((rfl | rfl) | rfl) | rfl <;> exact ⟨by decide, by decide, by decide, by decide⟩

theorem IsFraction.eq_written {text ds : List Char} (h : IsFraction text ds) :
    text = writtenFraction ds ∧ ∀ d ∈ ds, d.isDigit := by
  cases h with
  | none => exact ⟨rfl, by simp⟩
  | some h => exact ⟨(writtenFraction_of_ne_nil h.1).symm, h.2⟩

theorem IsDigits.head {ds : List Char} (h : IsDigits ds) : ∃ d tail, ds = d :: tail ∧ d.isDigit := by
  cases ds with
  | nil => exact absurd rfl h.1
  | cons d tail => exact ⟨d, tail, rfl, h.2 d List.mem_cons_self⟩

theorem signedExponent_complete {sign ds rest : List Char} {negative : Bool}
    (hs : IsExponentSign sign negative) (hd : IsDigits ds) (hr : EndsNumber rest) :
    signedExponent (sign ++ (ds ++ rest)) = some (some (negative, ds), rest) := by
  rw [← exponentDigits_append hd.1 hd.2 hr negative]
  cases hs with
  | plus => rfl
  | minus => rfl
  | none =>
    obtain ⟨d, tail, rfl, hdigit⟩ := hd.head
    rw [List.nil_append, List.cons_append]
    unfold signedExponent
    split
    · next h =>
      rw [List.cons.injEq] at h
      rw [h.1] at hdigit
      exact absurd hdigit (by decide)
    · next h =>
      rw [List.cons.injEq] at h
      rw [h.1] at hdigit
      exact absurd hdigit (by decide)
    · rfl

theorem exponent_complete {text rest : List Char} {e : Option (Bool × List Char)}
    (h : IsExponent text e) (hr : EndsNumber rest) : exponent (text ++ rest) = some (e, rest) := by
  cases h with
  | none => exact exponent_written (e := none) (by simp) hr
  | some hl hs hd =>
    have hread := signedExponent_complete hs hd hr
    rw [List.cons_append, List.append_assoc]
    rcases hl with rfl | rfl
    · exact hread
    · exact hread

theorem IsExponent.head {text rest : List Char} {e : Option (Bool × List Char)} (h : IsExponent text e)
    (hr : EndsNumber rest) : ∀ c ∈ (text ++ rest).head?, c.isDigit = false ∧ c ≠ '.' := by
  intro c hc
  cases h with
  | none => exact ⟨(hr c hc).1, (hr c hc).2.1⟩
  | some hl _ _ =>
    simp only [List.cons_append, List.head?_cons, Option.mem_some_iff] at hc
    subst hc
    rcases hl with rfl | rfl <;> exact ⟨by decide, by decide⟩

theorem unsignedText_complete {text rest : List Char} {t : NumberText} (h : IsUnsigned text t)
    (hr : EndsNumber rest) : unsignedText t.negative (text ++ rest) = some (t, rest) := by
  obtain ⟨fraction, exponent, rfl, hw, hd, hf, he⟩ := h
  obtain ⟨rfl, hfd⟩ := hf.eq_written
  have hhead := he.head hr
  unfold unsignedText
  rw [List.append_assoc, List.append_assoc, digits_append hd (head_writtenFraction _ hhead)]
  simp only [hw, if_true, fraction_written hfd hhead, exponent_complete he hr, Option.bind_eq_bind,
    Option.bind_some]

theorem IsUnsigned.head {text : List Char} {t : NumberText} (h : IsUnsigned text t) :
    ∃ d tail, text = d :: tail ∧ d.isDigit := by
  obtain ⟨fraction, exponent, rfl, hw, hd, _, _⟩ := h
  cases hwhole : t.whole with
  | nil =>
    rw [hwhole] at hw
    cases hw
  | cons d ds => exact ⟨d, _, rfl, hd d (hwhole ▸ List.mem_cons_self)⟩

theorem numberText_complete {text rest : List Char} {t : NumberText} (h : IsNumberText text t)
    (hr : EndsNumber rest) : numberText (text ++ rest) = some (t, rest) := by
  cases h with
  | minus hn h =>
    have hread := unsignedText_complete h hr
    rw [hn] at hread
    exact hread
  | plain hn h =>
    have hread := unsignedText_complete h hr
    obtain ⟨d, tail, rfl, hd⟩ := h.head
    rw [hn] at hread
    rw [List.cons_append] at hread ⊢
    unfold numberText
    split
    · next he =>
      rw [List.cons.injEq] at he
      rw [he.1] at hd
      exact absurd hd (by decide)
    · exact hread

theorem IsNumberText.head {text : List Char} {t : NumberText} (h : IsNumberText text t) :
    ∃ c tail, text = c :: tail ∧ BeginsNumber c := by
  cases h with
  | minus _ _ => exact ⟨'-', _, rfl, Or.inl rfl⟩
  | plain _ h =>
    obtain ⟨d, tail, rfl, hd⟩ := h.head
    exact ⟨d, tail, rfl, Or.inr hd⟩

theorem stringUnits_complete {inside : List Char} {us : List Nat} (h : StringInside inside us)
    (rest : List Char) : stringUnits (inside ++ '"' :: rest) = some (us, rest) := by
  induction h with
  | nil => rw [List.nil_append, stringUnits]
  | plain hq hb hc h ih =>
    rw [List.cons_append, stringUnits_plain hq hb (Nat.not_lt.2 hc), ih]
    rfl
  | letter he h ih =>
    rw [List.cons_append, List.cons_append, stringUnits_letter he, ih]
    rfl
  | unit hu h ih =>
    simp only [List.cons_append]
    rw [stringUnits, hu, ih]
    rfl

theorem stringBody_complete {inside : List Char} {us : List Nat} {s : String} (h : StringInside inside us)
    (hs : Text.ofUnits us = some s.toList) (rest : List Char) :
    stringBody (inside ++ '"' :: rest) = some (s, rest) := by
  rw [stringBody, stringUnits_complete h rest]
  simp only [Option.bind_eq_bind, Option.bind_some, hs, String.ofList_toList]

theorem scalar_complete {text rest : List Char} {v : Value} (h : IsScalar text v) (hr : EndsNumber rest) :
    scalar (text ++ rest) = some (v, rest) := by
  cases h with
  | null => rfl
  | yes => rfl
  | no => rfl
  | number hn hv =>
    have hread := numberText_complete hn hr
    obtain ⟨c, tail, rfl, hc⟩ := hn.head
    rw [List.cons_append] at hread ⊢
    rw [scalar_of_beginsNumber hc, number, hread]
    simp only [Option.bind_eq_bind, Option.bind_some, hv]
  | string hs =>
    obtain ⟨inside, us, rfl, hi, hu⟩ := hs
    rw [List.cons_append, List.append_assoc, List.singleton_append, scalar, stringBody_complete hi hu rest]
    rfl

/-! ### The containers of a text -/

/-- The characters that a value begins with. -/
structure BeginsValue (c : Char) : Prop where
  not_isSpace : isSpace c = false
  ne_bracket : c ≠ ']'
  ne_brace : c ≠ '\x7d'

theorem BeginsNumber.beginsValue {c : Char} (h : BeginsNumber c) : BeginsValue c :=
  ⟨h.not_isSpace, h.not (by decide), h.not (by decide)⟩

theorem IsScalar.head {text : List Char} {v : Value} (h : IsScalar text v) :
    ∃ c tail, text = c :: tail ∧ BeginsValue c ∧ c ≠ '[' ∧ c ≠ '\x7b' := by
  cases h with
  | null => exact ⟨'n', _, rfl, by constructor <;> decide, by decide, by decide⟩
  | yes => exact ⟨'t', _, rfl, by constructor <;> decide, by decide, by decide⟩
  | no => exact ⟨'f', _, rfl, by constructor <;> decide, by decide, by decide⟩
  | number hn _ =>
    obtain ⟨c, tail, rfl, hc⟩ := hn.head
    exact ⟨c, tail, rfl, hc.beginsValue, hc.not (by decide), hc.not (by decide)⟩
  | string hs =>
    obtain ⟨inside, us, rfl, _, _⟩ := hs
    exact ⟨'"', _, rfl, by constructor <;> decide, by decide, by decide⟩

theorem IsValue.head {depth : Nat} {text : List Char} {v : Value} (h : IsValue depth text v) :
    ∃ c tail, text = c :: tail ∧ BeginsValue c := by
  have hscalar : IsScalar text v → ∃ c tail, text = c :: tail ∧ BeginsValue c := by
    intro hs
    obtain ⟨c, tail, ht, hc, _, _⟩ := hs.head
    exact ⟨c, tail, ht, hc⟩
  cases depth with
  | zero => exact hscalar h
  | succ depth =>
    rcases h with h | ⟨inside, items, rfl, _, _⟩ | ⟨inside, fields, rfl, _, _⟩
    · exact hscalar h
    · exact ⟨'[', _, rfl, by constructor <;> decide⟩
    · exact ⟨'\x7b', _, rfl, by constructor <;> decide⟩

/-- All that is of the grammar is taken off the front, with spaces before it, if nothing behind it goes
on with a number. -/
def ReadsAll {α : Type} (reader : Reader α) (P : List Char → α → Prop) : Prop :=
  ∀ ⦃before text rest : List Char⦄ ⦃x : α⦄, IsSpaces before → P text x → EndsNumber rest →
    reader (before ++ (text ++ rest)) = some (x, rest)

/-- A character that closes a container. -/
structure Closes (close : Char) : Prop where
  not_isSpace : isSpace close = false
  ne_comma : close ≠ ','
  endsNumber : ∀ rest, EndsNumber (close :: rest)

theorem endsNumber_cons {c : Char} (h : c.isDigit = false ∧ c ≠ '.' ∧ c ≠ 'e' ∧ c ≠ 'E') (rest : List Char) :
    EndsNumber (c :: rest) := by
  intro d hd
  simp only [List.head?_cons, Option.mem_some_iff] at hd
  exact hd ▸ h

theorem closes_bracket : Closes ']' := ⟨by decide, by decide, endsNumber_cons (by decide)⟩

theorem closes_brace : Closes '\x7d' := ⟨by decide, by decide, endsNumber_cons (by decide)⟩

section

variable {α : Type} {item : Reader α} {P : List Char → α → Prop} {close : Char}

theorem IsPadded.read (hi : ReadsAll item P) {cs rest : List Char} {x : α} (h : IsPadded P cs x)
    (hr : EndsNumber rest) : ∃ after, IsSpaces after ∧ item (cs ++ rest) = some (x, after ++ rest) := by
  obtain ⟨before, text, after, rfl, hbefore, hP, hafter⟩ := h
  refine ⟨after, hafter, ?_⟩
  rw [← hi hbefore hP (hr.of_spaces hafter)]
  simp only [List.append_assoc]

theorem sequence_complete (hc : Closes close) (hi : ReadsAll item P) {inside : List Char} {xs : List α}
    (h : IsSeparated (IsPadded P) inside xs) {fuel : Nat} (hf : xs.length ≤ fuel) (rest : List Char) :
    sequence item close fuel (inside ++ close :: rest) = some (xs, rest) := by
  induction h generalizing fuel with
  | last h =>
    cases fuel with
    | zero => simp at hf
    | succ fuel =>
      obtain ⟨after, hafter, hread⟩ := h.read hi (hc.endsNumber rest)
      rw [sequence, hread]
      simp only [Option.bind_eq_bind, Option.bind_some, skipSpace_spaces hafter,
        skipSpace_of_not_isSpace rest hc.not_isSpace, if_neg hc.ne_comma, if_true]
  | @cons cs tail x xs h hs ih =>
    cases fuel with
    | zero => simp at hf
    | succ fuel =>
      have hcomma : isSpace ',' = false := by decide
      obtain ⟨after, hafter, hread⟩ := h.read hi (endsNumber_cons (c := ',') (by decide)
        (tail ++ close :: rest))
      have htail := ih (Nat.le_of_succ_le_succ hf)
      rw [List.append_assoc, List.cons_append, sequence, hread]
      simp only [Option.bind_eq_bind, Option.bind_some, skipSpace_spaces hafter,
        skipSpace_of_not_isSpace _ hcomma, if_true, htail]

theorem IsSeparated.length_le {Q : List Char → α → Prop} {cs : List Char} {xs : List α}
    (h : IsSeparated Q cs xs) : xs.length ≤ cs.length + 1 := by
  induction h with
  | last _ => simp
  | cons _ _ ih =>
    simp only [List.length_cons, List.length_append]
    omega

theorem IsSeparated.head {cs : List Char} {xs : List α} (h : IsSeparated (IsPadded P) cs xs)
    (hP : ∀ text x, P text x → ∃ c tail, text = c :: tail ∧ isSpace c = false ∧ c ≠ close)
    (rest : List Char) : ∃ c tail, skipSpace (cs ++ rest) = c :: tail ∧ c ≠ close := by
  have key : ∀ text x tail, IsPadded P text x →
      ∃ c more, skipSpace (text ++ tail) = c :: more ∧ c ≠ close := by
    intro text x tail hpadded
    obtain ⟨before, text, after, rfl, hbefore, htext, _⟩ := hpadded
    obtain ⟨c, more, rfl, hs, hne⟩ := hP text x htext
    refine ⟨c, more ++ (after ++ tail), ?_, hne⟩
    simp only [List.append_assoc, List.cons_append]
    rw [skipSpace_spaces hbefore, skipSpace_of_not_isSpace _ hs]
  cases h with
  | last h => exact key _ _ rest h
  | cons h _ =>
    rw [List.append_assoc]
    exact key _ _ _ h

theorem enclosed_complete (hc : Closes close) (hi : ReadsAll item P)
    (hP : ∀ text x, P text x → ∃ c tail, text = c :: tail ∧ isSpace c = false ∧ c ≠ close)
    {inside : List Char} {xs : List α} (h : IsInside P inside xs) (rest : List Char) :
    enclosed item close (inside ++ close :: rest) = some (xs, rest) := by
  unfold enclosed
  cases h with
  | empty h =>
    rw [skipSpace_spaces h, skipSpace_of_not_isSpace rest hc.not_isSpace]
    exact if_pos rfl
  | members h =>
    obtain ⟨c, tail, hs, hne⟩ := h.head hP (close :: rest)
    have hlen : xs.length ≤ (inside ++ close :: rest).length := by
      have := h.length_le
      simp only [List.length_append, List.length_cons]
      omega
    rw [hs]
    dsimp only
    rw [if_neg hne]
    exact sequence_complete hc hi h hlen rest

theorem field_complete (hi : ReadsAll item P) : ReadsAll (field item) (IsField P) := by
  intro before cs rest f hbefore hf hr
  obtain ⟨key, gap, after, text, rfl, ⟨inside, us, rfl, hinside, hu⟩, hgap, hafter, hP⟩ := hf
  have hq : isSpace '"' = false := by decide
  have hcolon : isSpace ':' = false := by decide
  have hvalue := hi hafter hP hr
  simp only [List.append_assoc, List.cons_append, List.nil_append]
  rw [field, skipSpace_spaces hbefore, skipSpace_of_not_isSpace _ hq]
  simp only [stringBody_complete hinside hu, Option.bind_eq_bind, Option.bind_some, skipSpace_spaces hgap,
    skipSpace_of_not_isSpace _ hcolon, hvalue]

theorem IsField.head {cs : List Char} {f : String × α} (h : IsField P cs f) :
    ∃ tail, cs = '"' :: tail := by
  obtain ⟨key, gap, after, text, rfl, ⟨inside, us, rfl, _, _⟩, _, _, _⟩ := h
  exact ⟨_, rfl⟩

end

theorem value_spaces {before : List Char} (h : IsSpaces before) (depth : Nat) (cs : List Char) :
    value depth (before ++ cs) = value depth cs := by
  cases depth with
  | zero => simp only [value, skipSpace_spaces h]
  | succ depth => simp only [value, skipSpace_spaces h]

/-- **All that is of the grammar is taken off the front of a text.** -/
theorem value_complete (depth : Nat) : ReadsAll (value depth) (IsValue depth) := by
  have hscalar : ∀ depth text rest v, IsScalar text v → EndsNumber rest →
      value depth (text ++ rest) = some (v, rest) := by
    intro depth text rest v hs hr
    have hread := scalar_complete hs hr
    obtain ⟨c, tail, rfl, hc, ha, ho⟩ := hs.head
    rw [List.cons_append] at hread ⊢
    rw [value_of_not_container hc.not_isSpace ha ho, hread]
  induction depth with
  | zero =>
    intro before text rest v hbefore h hr
    rw [value_spaces hbefore]
    exact hscalar 0 text rest v h hr
  | succ depth ih =>
    intro before text rest v hbefore h hr
    rw [value_spaces hbefore]
    rcases h with h | ⟨inside, items, rfl, hinside, rfl⟩ | ⟨inside, fields, rfl, hinside, rfl⟩
    · exact hscalar _ text rest v h hr
    · have hhead : ∀ text v, IsValue depth text v →
          ∃ c tail, text = c :: tail ∧ isSpace c = false ∧ c ≠ ']' := by
        intro text v hv
        obtain ⟨c, tail, ht, hc⟩ := hv.head
        exact ⟨c, tail, ht, hc.not_isSpace, hc.ne_bracket⟩
      rw [List.cons_append, List.append_assoc, List.singleton_append, value_array,
        enclosed_complete closes_bracket ih hhead hinside]
      rfl
    · have hhead : ∀ text f, IsField (IsValue depth) text f →
          ∃ c tail, text = c :: tail ∧ isSpace c = false ∧ c ≠ '\x7d' := by
        intro text f hf
        obtain ⟨tail, ht⟩ := hf.head
        exact ⟨'"', tail, ht, by decide, by decide⟩
      rw [List.cons_append, List.append_assoc, List.singleton_append, value_object,
        enclosed_complete closes_brace (field_complete ih) hhead hinside]
      rfl

end EnginePipe.Json
