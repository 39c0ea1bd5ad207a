import EnginePipe.Proofs.Json.Legible

/-!
# What is read is sound

Whatever a reader gives is a value that a printer can give back: its integers are in range, its fields
stand in order, its reals are finite, and it nests no deeper than the reader goes.

* `Value.Sound`: these four together.
* `sound_of_value`: **every value that is read is sound**.
* `value_print_of_sound`: the text of a sound value is read.
-/

namespace EnginePipe.Json

open EnginePipe.Real (Magnitude)

/-! ### Sound values -/

/-- A value as it may be read, nesting at most `depth` deep. -/
structure Value.Sound (depth : Nat) (v : Value) : Prop where
  wellFormed : v.WellFormed
  nesting_le : v.nesting ≤ depth
  finite : v.RealsIn fun x => x.magnitude.Finite

namespace Value.Sound

theorem mono {depth depth' : Nat} {v : Value} (h : v.Sound depth) (hd : depth ≤ depth') :
    v.Sound depth' := ⟨h.wellFormed, Nat.le_trans h.nesting_le hd, h.finite⟩

theorem of_integral {depth : Nat} {v : Value} (hw : v.WellFormed) (hi : v.Integral) (hn : v.nesting ≤ depth) :
    v.Sound depth := ⟨hw, hn, realsIn_of_integral hi⟩

theorem legible {depth : Nat} {v : Value} (h : v.Sound depth) : v.RealsIn Legible :=
  h.finite.mono fun _ => legible_of_finite

theorem null {depth : Nat} : Value.null.Sound depth := ⟨trivial, Nat.zero_le _, .null⟩

theorem bool {depth : Nat} (b : Bool) : (Value.bool b).Sound depth := ⟨trivial, Nat.zero_le _, .bool b⟩

theorem string {depth : Nat} (s : String) : (Value.string s).Sound depth :=
  ⟨trivial, Nat.zero_le _, .string s⟩

theorem integer {depth : Nat} {n : Int} (hl : minInteger ≤ n) (hu : n ≤ maxInteger) :
    (Value.integer n).Sound depth := ⟨⟨hl, hu⟩, Nat.zero_le _, .integer n⟩

theorem array {depth : Nat} {items : List Value} (h : ∀ item ∈ items, item.Sound depth) :
    (Value.array items).Sound (depth + 1) where
  wellFormed := itemsWellFormed_iff.2 fun item hi => (h item hi).wellFormed
  nesting_le := Nat.succ_le_succ (itemsNesting_le_iff.2 fun item hi => (h item hi).nesting_le)
  finite := .array fun item hi => (h item hi).finite

theorem object {depth : Nat} {fields : List (String × Value)}
    (hp : fields.Pairwise fun f g => f.1 < g.1) (h : ∀ f ∈ fields, f.2.Sound depth) :
    (Value.object fields).Sound (depth + 1) where
  wellFormed := ⟨hp, fieldsWellFormed_iff.2 fun f hf => (h f hf).wellFormed⟩
  nesting_le := Nat.succ_le_succ (fieldsNesting_le_iff.2 fun f hf => (h f hf).nesting_le)
  finite := .object fun f hf => (h f hf).finite

theorem items {depth : Nat} {items : List Value} (h : (Value.array items).Sound (depth + 1)) :
    ∀ item ∈ items, item.Sound depth := by
  intro item hi
  refine ⟨itemsWellFormed_iff.1 h.wellFormed item hi, ?_, ?_⟩
  · exact itemsNesting_le_iff.1 (Nat.le_of_succ_le_succ h.nesting_le) item hi
  · cases h.finite with
    | array hf => exact hf item hi

theorem fields {depth : Nat} {fields : List (String × Value)} (h : (Value.object fields).Sound (depth + 1)) :
    ∀ field ∈ fields, field.2.Sound depth := by
  intro field hf
  refine ⟨fieldsWellFormed_iff.1 h.wellFormed.2 field hf, ?_, ?_⟩
  · exact fieldsNesting_le_iff.1 (Nat.le_of_succ_le_succ h.nesting_le) field hf
  · cases h.finite with
    | object hreals => exact hreals field hf

end Value.Sound

/-! ### Numbers -/

theorem finite_of_mul {m p q : Magnitude} (h : m.mul p = some q) : q.Finite :=
  (Magnitude.nearest_spec h).1

theorem finite_of_div {m p q : Magnitude} (h : m.div p = some q) : q.Finite := by
  rw [Magnitude.div] at h
  split at h
  · cases h
  · exact (Magnitude.nearest_spec h).1

theorem finite_of_scaleTen {m q : Magnitude} {e : Int} (hm : m.Finite) (h : scaleTen m e = some q) :
    q.Finite := by
  induction hn : e.natAbs using Nat.strongRecOn generalizing m e with
  | ind n ih =>
    rw [scaleTen] at h
    split at h
    · obtain ⟨p, _, hp⟩ := Option.bind_eq_some_iff.1 h
      split at hp
      · exact finite_of_mul hp
      · exact finite_of_div hp
    split at h
    · cases h
      exact hm
    split at h
    · cases h
    · next hlarge _ _ =>
      obtain ⟨p, _, hp⟩ := Option.bind_eq_some_iff.1 h
      obtain ⟨smaller, hs, hrest⟩ := Option.bind_eq_some_iff.1 hp
      rw [maxPower] at hlarge
      exact ih _ (by rw [maxPower]; omega) (finite_of_div hs) hrest rfl

theorem finite_of_realOf {s : Nat} {places : Int} {e : Option (Bool × List Char)} {m : Magnitude}
    (h : realOf s places e = some m) : m.Finite := by
  rw [realOf] at h
  dsimp only at h
  split at h
  · split at h
    · cases h
      exact Magnitude.finite_zero
    · cases h
  · obtain ⟨whole, hw, hm⟩ := Option.bind_eq_some_iff.1 h
    exact finite_of_scaleTen (Magnitude.nearest_spec hw).1 hm

theorem sound_of_numberText {t : NumberText} {v : Value} (h : t.value = some v) (depth : Nat) :
    v.Sound depth := by
  have hwhole := absorb_lt (s := 0) (by decide) t.whole
  unfold NumberText.value at h
  dsimp only at h
  generalize absorb 0 t.whole = w at h hwhole
  split at h
  · next hint =>
    cases h
    rw [significandBound] at hwhole
    rw [minInteger] at hint
    split
    · next hneg =>
      rcases hint.2.2.2 with hpos | hle
      · rw [hpos] at hneg
        cases hneg
      · exact .integer (by rw [minInteger]; exact hle.2) (by rw [maxInteger]; omega)
    · exact .integer (by rw [minInteger]; omega) (by rw [maxInteger]; omega)
  · obtain ⟨m, hm, rfl⟩ := Option.map_eq_some_iff.1 h
    exact ⟨trivial, Nat.zero_le _, .real (finite_of_realOf hm)⟩

theorem sound_of_number {cs rest : List Char} {v : Value} (h : number cs = some (v, rest))
    (depth : Nat) : v.Sound depth := by
  unfold number at h
  obtain ⟨⟨t, cs'⟩, _, ht⟩ := Option.bind_eq_some_iff.1 h
  obtain ⟨w, hw, heq⟩ := Option.bind_eq_some_iff.1 ht
  cases heq
  exact sound_of_numberText hw depth

theorem sound_of_scalar {cs rest : List Char} {v : Value} (h : scalar cs = some (v, rest))
    (depth : Nat) : v.Sound depth := by
  have hword : ∀ {w cs : List Char} {u : Value}, word w u cs = some (v, rest) → u = v := by
    intro w cs u hu
    obtain ⟨_, _, heq⟩ := Option.map_eq_some_iff.1 hu
    exact congrArg Prod.fst heq
  unfold scalar at h
  split at h
  · obtain ⟨⟨s, cs'⟩, _, heq⟩ := Option.map_eq_some_iff.1 h
    cases heq
    exact .string s
  · cases hword h
    exact .null
  · cases hword h
    exact .bool true
  · cases hword h
    exact .bool false
  · exact sound_of_number h depth

/-! ### Containers -/

section

variable {α : Type} {item : Reader α} {close : Char}

theorem read_of_mem_sequence {fuel : Nat} {cs rest : List Char} {xs : List α}
    (h : sequence item close fuel cs = some (xs, rest)) :
    ∀ x ∈ xs, ∃ cs rest, item cs = some (x, rest) := by
  induction fuel generalizing cs xs with
  | zero => rw [sequence] at h; cases h
  | succ fuel ih =>
    rw [sequence] at h
    obtain ⟨⟨x, cs'⟩, hx, hrest⟩ := Option.bind_eq_some_iff.1 h
    dsimp only at hrest
    split at hrest
    · cases hrest
    split at hrest
    · obtain ⟨⟨ys, cs''⟩, hys, heq⟩ := Option.bind_eq_some_iff.1 hrest
      cases heq
      intro y hy
      rcases List.mem_cons.1 hy with rfl | hy
      · exact ⟨cs, cs', hx⟩
      · exact ih hys y hy
    split at hrest
    · cases hrest
      intro y hy
      rw [List.mem_singleton] at hy
      subst hy
      exact ⟨cs, cs', hx⟩
    · cases hrest

theorem read_of_mem_enclosed {cs rest : List Char} {xs : List α}
    (h : enclosed item close cs = some (xs, rest)) : ∀ x ∈ xs, ∃ cs rest, item cs = some (x, rest) := by
  unfold enclosed at h
  split at h
  · cases h
  split at h
  · cases h
    intro x hx
    cases hx
  · exact read_of_mem_sequence h

end

theorem read_of_field {α : Type} {r : Reader α} {cs rest : List Char} {key : String} {x : α}
    (h : field r cs = some ((key, x), rest)) : ∃ cs rest, r cs = some (x, rest) := by
  unfold field at h
  split at h
  · obtain ⟨⟨k, cs'⟩, _, hrest⟩ := Option.bind_eq_some_iff.1 h
    dsimp only at hrest
    split at hrest
    · obtain ⟨⟨y, cs''⟩, hy, heq⟩ := Option.bind_eq_some_iff.1 hrest
      cases heq
      exact ⟨_, _, hy⟩
    · cases hrest
  · cases h

section

variable {α : Type}

theorem mem_of_mem_insertField {key : String} {x : α} {fields : List (String × α)} {f : String × α}
    (h : f ∈ insertField key x fields) : f = (key, x) ∨ f ∈ fields := by
  induction fields with
  | nil => exact Or.inl (List.mem_singleton.1 h)
  | cons field fields ih =>
    obtain ⟨k, y⟩ := field
    rw [insertField] at h
    split at h
    · exact List.mem_cons.1 h
    split at h
    · rcases List.mem_cons.1 h with h | h
      · exact Or.inl h
      · exact Or.inr (List.mem_cons_of_mem _ h)
    · rcases List.mem_cons.1 h with h | h
      · exact Or.inr (h ▸ List.mem_cons_self)
      · rcases ih h with h | h
        · exact Or.inl h
        · exact Or.inr (List.mem_cons_of_mem _ h)

theorem pairwise_insertField {key : String} (x : α) {fields : List (String × α)}
    (h : fields.Pairwise fun f g => f.1 < g.1) :
    (insertField key x fields).Pairwise fun f g => f.1 < g.1 := by
  induction fields with
  | nil => exact List.pairwise_singleton _ _
  | cons field fields ih =>
    obtain ⟨k, y⟩ := field
    obtain ⟨hk, hfields⟩ := List.pairwise_cons.1 h
    rw [insertField]
    split
    · next hlt =>
      refine List.pairwise_cons.2 ⟨?_, h⟩
      intro f hf
      rcases List.mem_cons.1 hf with rfl | hf
      · exact hlt
      · exact String.lt_trans hlt (hk f hf)
    split
    · next heq =>
      subst heq
      exact List.pairwise_cons.2 ⟨hk, hfields⟩
    · next hlt hne =>
      refine List.pairwise_cons.2 ⟨?_, ih hfields⟩
      intro f hf
      rcases mem_of_mem_insertField hf with rfl | hf
      · by_contra hge
        exact hne (String.le_antisymm (String.not_lt.1 hge) (String.not_lt.1 hlt))
      · exact hk f hf

theorem fieldsOf_spec (written : List (String × α)) :
    (fieldsOf written).Pairwise (fun f g => f.1 < g.1) ∧ ∀ f ∈ fieldsOf written, f ∈ written := by
  have key : ∀ (written fields : List (String × α)),
      fields.Pairwise (fun f g => f.1 < g.1) →
      (written.foldl (fun fields field => insertField field.1 field.2 fields) fields).Pairwise
        (fun f g => f.1 < g.1) ∧
      ∀ f ∈ written.foldl (fun fields field => insertField field.1 field.2 fields) fields,
        f ∈ written ∨ f ∈ fields := by
    intro written
    induction written with
    | nil => exact fun fields hp => ⟨hp, fun f hf => Or.inr hf⟩
    | cons field written ih =>
      intro fields hp
      obtain ⟨hpair, hmem⟩ := ih _ (pairwise_insertField field.2 hp)
      refine ⟨hpair, fun f hf => ?_⟩
      rcases hmem f hf with h | h
      · exact Or.inl (List.mem_cons_of_mem _ h)
      · rcases mem_of_mem_insertField h with rfl | h
        · exact Or.inl List.mem_cons_self
        · exact Or.inr h
  obtain ⟨hpair, hmem⟩ := key written [] List.Pairwise.nil
  refine ⟨hpair, fun f hf => ?_⟩
  rcases hmem f hf with h | h
  · exact h
  · cases h

end

/-! ### Values -/

/-- **Every value that is read is sound.** -/
theorem sound_of_value {depth : Nat} {cs rest : List Char} {v : Value}
    (h : value depth cs = some (v, rest)) : v.Sound depth := by
  induction depth generalizing cs rest v with
  | zero => exact sound_of_scalar h 0
  | succ depth ih =>
    rw [value] at h
    dsimp only at h
    split at h
    · obtain ⟨⟨items, cs'⟩, hitems, heq⟩ := Option.map_eq_some_iff.1 h
      cases heq
      refine .array fun item hi => ?_
      obtain ⟨_, _, hread⟩ := read_of_mem_enclosed hitems item hi
      exact ih hread
    · obtain ⟨⟨fields, cs'⟩, hfields, heq⟩ := Option.map_eq_some_iff.1 h
      cases heq
      obtain ⟨hpair, hmem⟩ := fieldsOf_spec fields
      refine .object hpair fun f hf => ?_
      obtain ⟨_, _, hfield⟩ := read_of_mem_enclosed hfields f (hmem f hf)
      obtain ⟨_, _, hread⟩ := read_of_field hfield
      exact ih hread
    · exact sound_of_scalar h _

theorem sound_of_read {text : String} {v : Value} (h : read? text = some v) : v.Sound maxNesting := by
  unfold read? readChars? at h
  obtain ⟨⟨w, rest⟩, hw, heq⟩ := Option.bind_eq_some_iff.1 h
  dsimp only at heq
  split at heq
  · cases heq
    exact sound_of_value hw
  · cases heq

/-- The text of a sound value is read, and what is behind it is left. -/
theorem value_print_of_sound {depth : Nat} {v : Value} (h : v.Sound depth) {rest : List Char}
    (hr : EndsNumber rest) : value depth (v.print ++ rest) = some (v.reread, rest) :=
  value_print h.wellFormed h.legible h.nesting_le hr

/-- **The compact text of a sound value is read.** -/
theorem read_compact {v : Value} (h : v.Sound maxNesting) : read? v.compact = some v.reread := by
  have hread := value_print_of_sound h endsNumber_nil
  rw [List.append_nil] at hread
  unfold read? readChars? Value.compact
  rw [String.toList_ofList, hread]
  rfl

end EnginePipe.Json
