import EnginePipe.Proofs.Frame.Wires
import EnginePipe.Proofs.Json.Escaping

/-!
# Atoms of a frame

A frame of a request is cut into atoms whatever characters its source has.  In a string of JSON every backslash
begins an escape, and all of an escape is ASCII; so each atom is a character, an escape, or an escaped backslash
with the five characters of a unit behind it.  No atom begins inside an escape.

* `Slices.exists_atoms_inside`: **a part of a string is cut into atoms of its own**.
* `Framing.isSome_encode`: every request has a text on the wire, in any framing.
* `Framing.wire`: its bytes.
-/

namespace EnginePipe

open Json (StringInside)

namespace Slices

/-! ### One atom -/

theorem atomWidth_of_ne {c : Char} (hc : c ≠ '\\') (cs : List Char) : atomWidth c cs = c.utf8Size := by
  unfold atomWidth
  rw [if_neg hc]

theorem atomWidth_unit (cs : List Char) : atomWidth '\\' ('u' :: cs) = 6 := rfl

theorem atomWidth_backslash (cs : List Char) :
    atomWidth '\\' ('\\' :: cs) = if startsUnit cs then 7 else 2 := rfl

theorem atomWidth_letter {e : Char} (hu : e ≠ 'u') (hb : e ≠ '\\') (cs : List Char) :
    atomWidth '\\' (e :: cs) = 2 := by
  unfold atomWidth
  rw [if_pos rfl]
  split
  · next h => exact absurd (List.cons.inj h).1 hu
  · next h => exact absurd (List.cons.inj h).1 hb
  · rfl

theorem splitWidth_length {a : List Char} (h : ∀ c ∈ a, Text.isAscii c) (rest : List Char) :
    splitWidth a.length (a ++ rest) = some (a, rest) := by
  induction a with
  | nil =>
    cases rest with
    | nil => rfl
    | cons c rest => rfl
  | cons c a ih =>
    have hc := utf8Size_of_isAscii (h c List.mem_cons_self)
    have ha := ih fun d hd => h d (List.mem_cons_of_mem c hd)
    rw [List.length_cons, List.cons_append, splitWidth, hc, if_pos (by omega), Nat.add_sub_cancel, ha]
    rfl

theorem atoms_cons {c : Char} {a rest : List Char} (ha : ∀ d ∈ a, Text.isAscii d)
    (hw : atomWidth c (a ++ rest) = a.length + c.utf8Size) :
    atoms (c :: (a ++ rest)) = (atoms rest).map ((c :: a) :: ·) := by
  have hs : splitWidth (atomWidth c (a ++ rest) - c.utf8Size) (a ++ rest) = some (a, rest) := by
    rw [hw, Nat.add_sub_cancel]
    exact splitWidth_length ha rest
  rw [atoms]
  split
  · next hnone =>
    rw [hs] at hnone
    cases hnone
  · next a' rest' hsome =>
    rw [hs] at hsome
    cases hsome
    rfl

theorem atoms_cons_of_ne {c : Char} (hc : c ≠ '\\') (rest : List Char) :
    atoms (c :: rest) = (atoms rest).map ([c] :: ·) := by
  refine atoms_cons (a := []) (by simp) ?_
  rw [atomWidth_of_ne hc, List.length_nil, Nat.zero_add]

theorem atoms_append_of_not_mem {before : List Char} (h : '\\' ∉ before) (rest : List Char) :
    atoms (before ++ rest) = (atoms rest).map (before.map ([·]) ++ ·) := by
  induction before with
  | nil => simp
  | cons c before ih =>
    rw [List.mem_cons, not_or] at h
    rw [List.cons_append, atoms_cons_of_ne (Ne.symm h.1), ih h.2, Option.map_map]
    rfl

theorem atoms_of_not_mem {cs : List Char} (h : '\\' ∉ cs) : atoms cs = some (cs.map ([·])) := by
  have hsplit := atoms_append_of_not_mem h []
  rw [List.append_nil, atoms] at hsplit
  rw [hsplit, Option.map_some, List.append_nil]

/-! ### Atoms in a string -/

/-- What stands behind a part of a string and does not go on with a unit in it. -/
def EndsUnit (rest : List Char) : Prop := ∀ c ∈ rest.head?, c ≠ 'u' ∧ Text.isHexDigit c = false

/-- A character in a string is a character of its own, unless it is a backslash. -/
theorem exists_of_inside_eq_cons {cs rest tail : List Char} {us : List Nat} {x : Char}
    (h : StringInside cs us) (hx : x ≠ '\\') (hr : ∀ c ∈ rest.head?, c ≠ x) (he : cs ++ rest = x :: tail) :
    ∃ cs' us', cs = x :: cs' ∧ StringInside cs' us' ∧ cs' ++ rest = tail := by
  cases h with
  | nil =>
    rw [List.nil_append] at he
    exact absurd rfl (hr x (by rw [he]; rfl))
  | @plain c cs us _ _ _ h =>
    obtain ⟨rfl, htail⟩ := List.cons.inj he
    exact ⟨cs, us, rfl, h, htail⟩
  | letter _ _ => exact absurd (List.cons.inj he).1.symm hx
  | unit _ _ => exact absurd (List.cons.inj he).1.symm hx

theorem startsUnit_iff {cs : List Char} :
    startsUnit cs ↔ ∃ a b c d rest, cs = 'u' :: a :: b :: c :: d :: rest ∧ ∀ e ∈ [a, b, c, d], Text.isHexDigit e := by
  constructor
  · intro h
    unfold startsUnit at h
    split at h
    · next a b c d rest => exact ⟨a, b, c, d, rest, rfl, List.all_eq_true.1 h⟩
    · cases h
  · rintro ⟨a, b, c, d, rest, rfl, h⟩
    exact List.all_eq_true.2 h

theorem isAscii_of_mem_unit {ds : List Char} (h : ∀ e ∈ ds, Text.isHexDigit e) : ∀ e ∈ 'u' :: ds, Text.isAscii e := by
  intro e he
  rcases List.mem_cons.1 he with rfl | he
  · decide
  · exact (Text.isAscii_of_isHexDigit (h e he)).1

/-- A unit that goes on behind a backslash is all in the string. -/
theorem exists_of_startsUnit {cs rest : List Char} {us : List Nat} (h : StringInside cs us)
    (hr : EndsUnit rest) (hs : startsUnit (cs ++ rest)) :
    ∃ run cs' us', cs = run ++ cs' ∧ run.length = 5 ∧ (∀ c ∈ run, Text.isAscii c) ∧ StringInside cs' us' := by
  have hu : ∀ c ∈ rest.head?, c ≠ 'u' := fun c hc => (hr c hc).1
  have digit : ∀ {x : Char} {cs tail : List Char} {us : List Nat}, Text.isHexDigit x → StringInside cs us →
      cs ++ rest = x :: tail → ∃ cs' us', cs = x :: cs' ∧ StringInside cs' us' ∧ cs' ++ rest = tail := by
    intro x cs tail us hx h he
    refine exists_of_inside_eq_cons h (Text.isAscii_of_isHexDigit hx).2.1 ?_ he
    rintro c hc rfl
    rw [(hr c hc).2] at hx
    cases hx
  obtain ⟨a, b, c, d, tail, htext, hhex⟩ := startsUnit_iff.1 hs
  have hascii := isAscii_of_mem_unit hhex
  simp only [List.forall_mem_cons, List.not_mem_nil, false_implies, implies_true, and_true] at hhex
  obtain ⟨ha, hb, hc, hd⟩ := hhex
  obtain ⟨cs₁, us₁, rfl, h₁, htext₁⟩ := exists_of_inside_eq_cons h (by decide) hu htext
  obtain ⟨cs₂, us₂, rfl, h₂, htext₂⟩ := digit ha h₁ htext₁
  obtain ⟨cs₃, us₃, rfl, h₃, htext₃⟩ := digit hb h₂ htext₂
  obtain ⟨cs₄, us₄, rfl, h₄, htext₄⟩ := digit hc h₃ htext₃
  obtain ⟨cs₅, us₅, rfl, h₅, _⟩ := digit hd h₄ htext₄
  exact ⟨['u', a, b, c, d], cs₅, us₅, rfl, rfl, hascii, h₅⟩

theorem isAscii_of_ofHex? {ds : List Char} {u : Nat} (h : Text.ofHex? ds = some u) :
    ∀ d ∈ ds, Text.isAscii d :=
  fun d hd => (Text.isBare_of_ofHex? h d hd).1

theorem letterUnit?_ne_u {e : Char} {u : Nat} (h : Json.letterUnit? e = some u) : e ≠ 'u' := by
  rintro rfl
  cases h

theorem utf8Size_backslash : ('\\' : Char).utf8Size = 1 := by decide

theorem atoms_letter {e : Char} (ha : Text.isAscii e) (hu : e ≠ 'u') (hb : e ≠ '\\') (rest : List Char) :
    atoms ('\\' :: e :: rest) = (atoms rest).map (['\\', e] :: ·) := by
  refine atoms_cons (a := [e]) (by simpa using ha) ?_
  rw [List.singleton_append, atomWidth_letter hu hb, utf8Size_backslash]
  rfl

theorem atoms_unit (ds : List Char) (hlen : ds.length = 4) (ha : ∀ d ∈ ds, Text.isAscii d) (rest : List Char) :
    atoms ('\\' :: 'u' :: (ds ++ rest)) = (atoms rest).map (('\\' :: 'u' :: ds) :: ·) := by
  refine atoms_cons (a := 'u' :: ds) ?_ ?_
  · intro d hd
    rcases List.mem_cons.1 hd with rfl | hd
    · decide
    · exact ha d hd
  · rw [List.cons_append, atomWidth_unit, utf8Size_backslash, List.length_cons, hlen]

theorem atoms_backslash {rest : List Char} (h : ¬startsUnit rest) :
    atoms ('\\' :: '\\' :: rest) = (atoms rest).map (['\\', '\\'] :: ·) := by
  refine atoms_cons (a := ['\\']) (List.forall_mem_singleton.2 (by decide)) ?_
  rw [List.singleton_append, atomWidth_backslash, if_neg h, utf8Size_backslash]
  rfl

theorem atoms_backslash_run (run : List Char) {rest : List Char} (hlen : run.length = 5)
    (ha : ∀ d ∈ run, Text.isAscii d) (h : startsUnit (run ++ rest)) :
    atoms ('\\' :: '\\' :: (run ++ rest)) = (atoms rest).map (('\\' :: '\\' :: run) :: ·) := by
  refine atoms_cons (a := '\\' :: run) ?_ ?_
  · intro d hd
    rcases List.mem_cons.1 hd with rfl | hd
    · decide
    · exact ha d hd
  · rw [List.cons_append, atomWidth_backslash, if_pos h, utf8Size_backslash, List.length_cons, hlen]

/-- **A part of a string is cut into atoms of its own.** -/
theorem exists_atoms_inside {inside rest : List Char} {us : List Nat} (h : StringInside inside us)
    (hr : EndsUnit rest) :
    ∃ as : List (List Char), as.flatten = inside ∧ atoms (inside ++ rest) = (atoms rest).map (as ++ ·) := by
  induction hn : inside.length using Nat.strongRecOn generalizing inside us with
  | ind n ih =>
    -- an atom of the string, and what is known of the string behind it
    have step : ∀ (atom behind : List Char) (vs : List Nat), inside = atom ++ behind → atom ≠ [] →
        StringInside behind vs →
        atoms (atom ++ (behind ++ rest)) = (atoms (behind ++ rest)).map (atom :: ·) →
        ∃ as : List (List Char), as.flatten = inside ∧ atoms (inside ++ rest) = (atoms rest).map (as ++ ·) := by
      rintro atom behind vs rfl hne hbehind hatoms
      rw [List.length_append] at hn
      have hpos := List.length_pos_iff.2 hne
      obtain ⟨as, hflat, has⟩ := ih behind.length (by omega) hbehind rfl
      refine ⟨atom :: as, by rw [List.flatten_cons, hflat], ?_⟩
      rw [List.append_assoc, hatoms, has, Option.map_map]
      rfl
    cases h with
    | nil => exact ⟨[], rfl, by simp⟩
    | @plain c cs us _ hb _ h => exact step [c] cs us rfl (by simp) h (atoms_cons_of_ne hb _)
    | @unit a b c d u cs us hu h =>
      exact step ['\\', 'u', a, b, c, d] cs us rfl (by simp) h
        (atoms_unit [a, b, c, d] rfl (isAscii_of_ofHex? hu) _)
    | @letter e u cs us he h =>
      by_cases hb : e = '\\'
      · subst hb
        by_cases hs : startsUnit (cs ++ rest)
        · -- the reader of atoms takes the unit of the string for a unit of the text
          obtain ⟨run, cs', us', rfl, hlen, hascii, h'⟩ := exists_of_startsUnit h hr hs
          rw [List.append_assoc] at hs
          exact step ('\\' :: '\\' :: run) cs' us' rfl (by simp) h' (atoms_backslash_run run hlen hascii hs)
        · exact step ['\\', '\\'] cs us rfl (by simp) h (atoms_backslash hs)
      · exact step ['\\', e] cs us rfl (by simp) h
          (atoms_letter (Json.isAscii_of_letterUnit? he) (letterUnit?_ne_u he) hb _)

/-- What stands before a place in the first string of a text is cut into atoms of its own. -/
theorem exists_atoms_before {head inside rest : List Char} {us : List Nat} (hh : '\\' ∉ head)
    (h : StringInside inside us) (hr : EndsUnit rest) :
    ∃ as : List (List Char), as.flatten = head ++ '"' :: inside ∧
      atoms (head ++ '"' :: (inside ++ rest)) = (atoms rest).map (as ++ ·) := by
  have hhead : '\\' ∉ head ++ ['"'] := by simpa using hh
  obtain ⟨as, hflat, hatoms⟩ := exists_atoms_inside h hr
  refine ⟨(head ++ ['"']).map ([·]) ++ as, ?_, ?_⟩
  · rw [List.flatten_append, hflat, ← List.flatMap_def, List.flatMap_singleton', List.append_assoc]
    rfl
  · have hsplit := atoms_append_of_not_mem hhead (inside ++ rest)
    rw [hatoms, Option.map_map, List.append_assoc, List.singleton_append] at hsplit
    rw [hsplit]
    refine congrArg (Option.map · (atoms rest)) (funext fun bs => ?_)
    exact (List.append_assoc _ _ _).symm

/-! ### Frames of requests -/

theorem not_mem_printNat (n : Nat) : '\\' ∉ Json.printNat n := by
  intro h
  exact absurd (Json.isDigit_of_mem_printNat h) (by decide)

theorem stringInside_printed (cs : List Char) :
    StringInside (cs.flatMap Json.printChar) (cs.flatMap Text.units) := by
  obtain ⟨inside, hinside, h⟩ := Json.stringUnits_sound (Json.stringUnits_printed cs [])
  rwa [List.append_cancel_right hinside]

theorem encode_evaluate_eq (id : ContextId) (source : String) :
    (Request.evaluate id source).encode.toList =
      ('[' :: (Json.printNat id.toNat ++ [','])) ++
        '"' :: (source.toList.flatMap Json.printChar ++ ['"', ']']) := by
  rw [Request.encode_evaluate, Json.printString]
  simp only [List.append_assoc, List.cons_append, List.nil_append]

theorem isSome_atoms_encode (r : Request) : (atoms r.encode.toList).isSome := by
  cases r with
  | teardown id =>
    rw [Request.encode_teardown, atoms_of_not_mem]
    · rfl
    · simp [not_mem_printNat]
  | evaluate id source =>
    have hhead : '\\' ∉ '[' :: (Json.printNat id.toNat ++ [',']) := by simp [not_mem_printNat]
    have hend : EndsUnit ['"', ']'] := by
      intro c hc
      cases hc
      decide
    obtain ⟨as, _, hatoms⟩ := exists_atoms_before hhead (stringInside_printed source.toList) hend
    rw [encode_evaluate_eq, hatoms, atoms_of_not_mem (by decide)]
    rfl

/-- **A request can be cut, whatever the limit is.** -/
theorem isSome_ofFrame_encode (r : Request) (size : Nat) : (ofFrame r.encode size).isSome := by
  rw [ofFrame, Option.isSome_map, ofChars]
  split
  · rfl
  · rw [Option.isSome_map]
    exact isSome_atoms_encode r

end Slices

namespace Framing

theorem isSome_encode (framing : Framing) (r : Request) : (framing.encode r).isSome := by
  rw [encode, wrap, Option.isSome_map]
  cases framing with
  | line => rfl
  | chunked size =>
    rw [lines, Option.isSome_map]
    exact Slices.isSome_ofFrame_encode r size

/-- The bytes of a request on the wire. -/
def wire (framing : Framing) (r : Request) : List UInt8 :=
  Text.bytes ((framing.encode r).get (framing.isSome_encode r))

theorem exists_encode_eq (framing : Framing) (r : Request) :
    ∃ text, framing.encode r = some text ∧ framing.wire r = Text.bytes text := by
  obtain ⟨text, h⟩ := Option.isSome_iff_exists.1 (framing.isSome_encode r)
  refine ⟨text, h, ?_⟩
  simp only [wire, h, Option.get_some]

end Framing

end EnginePipe
