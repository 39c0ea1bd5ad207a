import EnginePipe.Proofs.Frame.Atoms

/-!
# Where a frame is cut

Slices are packed from whole atoms, so a cut between slices is a cut between atoms.  An escape in the string of
a frame begins where an atom begins and ends in that atom; so does an escaped backslash with a unit behind it.
Hence no cut goes through either of them.  An atom fits into every slice, so no slice is wider than the limit,
and none is empty but that of an empty frame.

* `exists_pack_eq_cons`: how wide packed slices are.
* `exists_atoms_of_pack`: a cut between slices is one between atoms.
* `exists_atoms_eq_cons`: what must not be cut is the beginning of one atom.
* `cuts_spare_escapes`: **slices are a frame in pieces of bounded width, and no cut goes through an escape**.
-/

namespace EnginePipe.Slices

open Json (StringInside)

/-! ### Packing -/

theorem ne_nil_of_mem_atoms {cs : List Char} {as : List (List Char)} (h : atoms cs = some as) :
    ∀ a ∈ as, a ≠ [] := by
  fun_induction atoms cs generalizing as with
  | case1 =>
    cases h
    exact fun a ha => absurd ha List.not_mem_nil
  | case2 => cases h
  | case3 c cs a b _ ih =>
    obtain ⟨bs, hb, rfl⟩ := Option.map_eq_some_iff.1 h
    intro d hd
    rcases List.mem_cons.1 hd with rfl | hd
    · exact List.cons_ne_nil c a
    · exact ih hb d hd

/-- Packed slices: what the first one still takes, and the others. -/
theorem exists_pack_eq_cons {limit : Nat} {as : List (List Char)} (h : ∀ a ∈ as, a ≠ [] ∧ width a ≤ limit)
    (used : Nat) :
    ∃ slice slices, pack limit used as = slice :: slices ∧ (used ≤ limit → used + width slice ≤ limit) ∧
      ∀ s ∈ slices, s ≠ [] ∧ width s ≤ limit := by
  induction as generalizing used with
  | nil => exact ⟨[], [], rfl, id, fun s hs => absurd hs List.not_mem_nil⟩
  | cons atom as ih =>
    obtain ⟨hne, hatom⟩ := h atom List.mem_cons_self
    have has : ∀ a ∈ as, a ≠ [] ∧ width a ≤ limit := fun a ha => h a (List.mem_cons_of_mem atom ha)
    rw [pack]
    by_cases hover : limit < used + width atom
    · obtain ⟨slice, slices, hpack, hslice, hslices⟩ := ih has (width atom)
      rw [if_pos hover, hpack]
      refine ⟨[], (atom ++ slice) :: slices, rfl, id, ?_⟩
      intro s hs
      rcases List.mem_cons.1 hs with rfl | hs
      · rw [width_append]
        exact ⟨by simp [hne], hslice hatom⟩
      · exact hslices s hs
    · obtain ⟨slice, slices, hpack, hslice, hslices⟩ := ih has (used + width atom)
      rw [if_neg hover, hpack]
      refine ⟨atom ++ slice, slices, rfl, ?_, hslices⟩
      intro _
      have := hslice (by omega)
      rw [width_append]
      omega

/-- The slices of a frame that was cut are not empty and not too wide. -/
theorem width_le_of_mem_ofChars {frame : List Char} {size : Nat} {slices : List (List Char)}
    (h : ofChars frame size = some slices) :
    ∀ s ∈ slices, width s ≤ max size minSize ∧ (s = [] → frame = []) := by
  simp only [ofChars] at h
  split at h
  · next hle =>
    cases h
    intro s hs
    rw [List.mem_singleton.1 hs]
    exact ⟨hle, id⟩
  · next hlt =>
    obtain ⟨as, has, rfl⟩ := Option.map_eq_some_iff.1 h
    have hatoms : ∀ a ∈ as, a ≠ [] ∧ width a ≤ max size minSize := fun a ha =>
      ⟨ne_nil_of_mem_atoms has a ha, Nat.le_trans (width_le_of_mem_atoms has a ha) (Nat.le_max_right _ _)⟩
    cases as with
    | nil =>
      have hframe : [] = frame := flatten_atoms has
      rw [← hframe, width] at hlt
      exact absurd (Nat.zero_le _) hlt
    | cons atom as =>
      obtain ⟨hne, hatom⟩ := hatoms atom List.mem_cons_self
      obtain ⟨slice, slices, hpack, hslice, hslices⟩ :=
        exists_pack_eq_cons (fun a ha => hatoms a (List.mem_cons_of_mem atom ha)) (width atom)
      rw [pack, if_neg (by omega), Nat.zero_add, hpack]
      intro s hs
      rcases List.mem_cons.1 hs with rfl | hs
      · rw [width_append]
        exact ⟨hslice hatom, fun he => absurd (List.append_eq_nil_iff.1 he).1 hne⟩
      · exact ⟨(hslices s hs).2, fun he => absurd he (hslices s hs).1⟩

/-! ### Cuts between atoms -/

theorem of_isPrefix_prepend {atom : List Char} {packed left : List (List Char)} (h : left <+: prepend atom packed) :
    left = [] ∨ ∃ rest, rest <+: packed ∧ left.flatten = atom ++ rest.flatten := by
  cases left with
  | nil => exact Or.inl rfl
  | cons first left =>
    refine Or.inr ?_
    cases packed with
    | nil =>
      obtain ⟨rfl, hleft⟩ := List.cons_prefix_cons.1 h
      rw [List.prefix_nil.1 hleft]
      exact ⟨[], List.prefix_rfl, rfl⟩
    | cons slice slices =>
      obtain ⟨rfl, hleft⟩ := List.cons_prefix_cons.1 h
      exact ⟨slice :: left, List.cons_prefix_cons.2 ⟨rfl, hleft⟩, by simp⟩

/-- **A cut between slices is one between atoms.** -/
theorem exists_atoms_of_pack {limit used : Nat} {as left : List (List Char)} (h : left <+: pack limit used as) :
    ∃ before, before <+: as ∧ left.flatten = before.flatten := by
  induction as generalizing used left with
  | nil =>
    rcases List.prefix_cons_iff.1 h with rfl | ⟨rest, rfl, hrest⟩
    · exact ⟨[], List.nil_prefix, rfl⟩
    · rw [List.prefix_nil.1 hrest]
      exact ⟨[], List.nil_prefix, rfl⟩
  | cons atom as ih =>
    -- the atom stands in the first slice of these, so a cut is before the atom or behind it
    have packed : ∀ {used : Nat} {left : List (List Char)}, left <+: prepend atom (pack limit used as) →
        ∃ before, before <+: atom :: as ∧ left.flatten = before.flatten := by
      intro used left h
      rcases of_isPrefix_prepend h with rfl | ⟨rest, hrest, hflat⟩
      · exact ⟨[], List.nil_prefix, rfl⟩
      · obtain ⟨before, hbefore, hrestFlat⟩ := ih hrest
        exact ⟨atom :: before, List.cons_prefix_cons.2 ⟨rfl, hbefore⟩, by rw [hflat, hrestFlat, List.flatten_cons]⟩
    rw [pack] at h
    split at h
    · rcases List.prefix_cons_iff.1 h with rfl | ⟨left, rfl, hleft⟩
      · exact ⟨[], List.nil_prefix, rfl⟩
      · -- the slice that took no more atoms is empty
        obtain ⟨before, hbefore, hflat⟩ := packed hleft
        exact ⟨before, hbefore, hflat⟩
    · exact packed h

/-! ### What must not be cut -/

/-- What must not be cut: an escape of a string, and an escaped backslash with a unit behind it, which the
engine reads as one escape. -/
inductive Inseparable : List Char → Prop
  | letter {e : Char} {u : Nat} (h : Json.letterUnit? e = some u) : Inseparable ['\\', e]
  | unit {a b c d : Char} {u : Nat} (h : Text.ofHex? [a, b, c, d] = some u) :
      Inseparable ['\\', 'u', a, b, c, d]
  | run {a b c d : Char} (h : ∀ e ∈ [a, b, c, d], Text.isHexDigit e) :
      Inseparable ['\\', '\\', 'u', a, b, c, d]

/-- A beginning of a frame that ends inside its string, between two of the characters and escapes there. -/
def EndsInString (before : List Char) : Prop :=
  ∃ head inside us, before = head ++ '"' :: inside ∧ '"' ∉ head ∧ StringInside inside us

/-- What must not be cut is the beginning of one atom. -/
theorem exists_atoms_eq_cons {t : List Char} (h : Inseparable t) (behind : List Char) :
    ∃ more rest, atoms (t ++ behind) = (atoms rest).map ((t ++ more) :: ·) := by
  cases h with
  | @letter e u h =>
    by_cases hb : e = '\\'
    · subst hb
      by_cases hs : startsUnit behind
      · -- the atom goes on with the unit
        obtain ⟨a, b, c, d, rest, rfl, hhex⟩ := startsUnit_iff.1 hs
        exact ⟨['u', a, b, c, d], rest, atoms_backslash_run ['u', a, b, c, d] rfl (isAscii_of_mem_unit hhex) hs⟩
      · exact ⟨[], behind, atoms_backslash hs⟩
    · exact ⟨[], behind, atoms_letter (Json.isAscii_of_letterUnit? h) (letterUnit?_ne_u h) hb behind⟩
  | @unit a b c d u h =>
    exact ⟨[], behind, atoms_unit [a, b, c, d] rfl (isAscii_of_ofHex? h) behind⟩
  | @run a b c d h =>
    refine ⟨[], behind, atoms_backslash_run ['u', a, b, c, d] rfl (isAscii_of_mem_unit h) ?_⟩
    exact startsUnit_iff.2 ⟨a, b, c, d, behind, rfl, h⟩

theorem Inseparable.endsUnit {t : List Char} (h : Inseparable t) (behind : List Char) : EndsUnit (t ++ behind) := by
  have hhead : (t ++ behind).head? = some '\\' := by cases h <;> rfl
  intro c hc
  rw [hhead] at hc
  cases hc
  decide

/-- Some first atoms end before another one, or behind it. -/
theorem eq_nil_of_flatten {before bs cs : List (List Char)} {t₁ t₂ more : List Char}
    (hb : before <+: bs ++ (t₁ ++ t₂ ++ more) :: cs) (hf : before.flatten = bs.flatten ++ t₁) : t₁ = [] ∨ t₂ = [] := by
  rcases List.prefix_or_prefix_of_prefix hb (List.prefix_append bs _) with ⟨behind, rfl⟩ | ⟨behind, rfl⟩
  · rw [List.flatten_append, List.append_assoc, List.self_eq_append_right, List.append_eq_nil_iff] at hf
    exact Or.inl hf.2
  · rw [List.flatten_append, List.append_cancel_left_eq] at hf
    rw [List.prefix_append_right_inj, List.prefix_cons_iff] at hb
    rcases hb with rfl | ⟨behind, rfl, -⟩
    · exact Or.inl hf.symm
    · rw [List.flatten_cons, List.append_assoc, List.append_assoc, List.append_right_eq_self,
        List.append_eq_nil_iff] at hf
      exact Or.inr hf.1

/-- No cut of a text goes through what must not be cut. -/
theorem eq_nil_of_cut {head inside t₁ t₂ behind : List Char} {us : List Nat} (hh : '\\' ∉ head)
    (hi : StringInside inside us) (ht : Inseparable (t₁ ++ t₂)) {size : Nat} {left right : List (List Char)}
    (h : ofChars (head ++ '"' :: (inside ++ (t₁ ++ t₂ ++ behind))) size = some (left ++ right))
    (hl : left.flatten = head ++ '"' :: (inside ++ t₁)) : t₁ = [] ∨ t₂ = [] := by
  simp only [ofChars] at h
  split at h
  · -- the frame is its own slice
    have hright := congrArg List.flatten (Option.some.inj h)
    rw [List.flatten_singleton, List.flatten_append, hl] at hright
    cases left with
    | nil => exact absurd hl.symm (by simp)
    | cons slice left =>
      obtain ⟨-, hnil⟩ := List.cons.inj (Option.some.inj h)
      rw [(List.append_eq_nil_iff.1 hnil.symm).2, List.flatten_nil, List.append_nil] at hright
      simp only [List.append_assoc, List.append_cancel_left_eq, List.cons.injEq, true_and,
        List.append_right_eq_self, List.append_eq_nil_iff] at hright
      exact Or.inr hright.1
  · obtain ⟨as, has, hpack⟩ := Option.map_eq_some_iff.1 h
    obtain ⟨before, hbefore, hflat⟩ := exists_atoms_of_pack (hpack ▸ List.prefix_append left right)
    obtain ⟨bs, hbs, hatoms⟩ := exists_atoms_before hh hi (ht.endsUnit behind)
    obtain ⟨more, rest, hrest⟩ := exists_atoms_eq_cons ht behind
    rw [hatoms, hrest, Option.map_map] at has
    obtain ⟨cs, -, rfl⟩ := Option.map_eq_some_iff.1 has
    refine eq_nil_of_flatten hbefore ?_
    rw [← hflat, hl, hbs, List.append_assoc]
    rfl

/-! ### Slices of requests -/

theorem width_eq_length_bytes (s : String) : width s.toList = (Text.bytes s).length := by
  rw [Text.bytes_eq_flatMap]
  induction s.toList with
  | nil => rfl
  | cons c cs ih => rw [width, List.flatMap_cons, List.length_append, ih, String.length_utf8EncodeChar]

/-- Before the string of a request there is no backslash. -/
theorem not_mem_head {r : Request} {head tail : List Char} (h : r.encode.toList = head ++ '"' :: tail)
    (hh : '"' ∉ head) : '\\' ∉ head := by
  have hnat : ∀ n, '"' ∉ Json.printNat n := fun n hn => absurd (Json.isDigit_of_mem_printNat hn) (by decide)
  cases r with
  | teardown id =>
    have hm : '"' ∈ head ++ '"' :: tail := List.mem_append_right head List.mem_cons_self
    rw [← h, Request.encode_teardown] at hm
    simp [hnat] at hm
  | evaluate id source =>
    rw [encode_evaluate_eq] at h
    have hfirst : ∀ {before : List Char} (behind : List Char), '"' ∉ before →
        (before ++ '"' :: behind).takeWhile (· ≠ '"') = before := by
      intro before behind hb
      rw [List.takeWhile_append_of_pos (fun c hc => decide_eq_true (ne_of_mem_of_not_mem hc hb)),
        List.takeWhile_cons_of_neg (by simp), List.append_nil]
    have hhead := congrArg (List.takeWhile (· ≠ '"')) h
    rw [hfirst tail hh, hfirst _ (by simp [hnat])] at hhead
    rw [← hhead]
    simp [not_mem_printNat]

/-- Slices put together are the frame. -/
theorem join_ofFrame {frame : String} {size : Nat} {slices : List String} (h : ofFrame frame size = some slices) :
    String.join slices = frame := by
  apply String.toList_inj.1
  rw [String.toList_join]
  exact Framing.gathered_ofFrame h

theorem bytes_le_of_mem_ofFrame {frame : String} {size : Nat} {slices : List String}
    (h : ofFrame frame size = some slices) {s : String} (hs : s ∈ slices) :
    (Text.bytes s).length ≤ max size minSize ∧ (s = "" → frame = "") := by
  obtain ⟨cuts, hcuts, rfl⟩ := Option.map_eq_some_iff.1 h
  obtain ⟨cut, hcut, rfl⟩ := List.mem_map.1 hs
  obtain ⟨hwidth, hempty⟩ := width_le_of_mem_ofChars hcuts cut hcut
  rw [← width_eq_length_bytes, String.toList_ofList]
  refine ⟨hwidth, fun he => String.toList_inj.1 (hempty ?_)⟩
  simpa using congrArg String.toList he

/-- **Slices are a frame in pieces of bounded width, and no cut of a request goes through an escape.**  Put together
they are the frame; none is wider than the limit, or than the widest atom if the limit is less than that; and
only an empty frame has an empty slice.  A request can be cut whatever its source and the limit are. -/
theorem cuts_spare_escapes :
    (∀ (frame : String) (size : Nat) (slices : List String), ofFrame frame size = some slices →
      String.join slices = frame ∧
      ∀ s ∈ slices, (Text.bytes s).length ≤ max size minSize ∧ (s = "" → frame = "")) ∧
    ∀ (r : Request) (size : Nat), ∃ slices, ofFrame r.encode size = some slices ∧
      ∀ left right before t₁ t₂ behind, slices = left ++ right →
        (String.join left).toList = before ++ t₁ → (String.join right).toList = t₂ ++ behind →
        EndsInString before → Inseparable (t₁ ++ t₂) → t₁ = [] ∨ t₂ = [] := by
  constructor
  · intro frame size slices h
    exact ⟨join_ofFrame h, fun s hs => bytes_le_of_mem_ofFrame h hs⟩
  · intro r size
    obtain ⟨slices, hslices⟩ := Option.isSome_iff_exists.1 (isSome_ofFrame_encode r size)
    refine ⟨slices, hslices, ?_⟩
    rintro left right before t₁ t₂ behind rfl hleft hright ⟨head, inside, us, rfl, hhead, hinside⟩ ht
    have hframe : r.encode.toList = head ++ '"' :: (inside ++ (t₁ ++ t₂ ++ behind)) := by
      rw [← join_ofFrame hslices, String.join_append, String.toList_append, hleft, hright]
      simp
    obtain ⟨cuts, hcuts, hmap⟩ := Option.map_eq_some_iff.1 hslices
    obtain ⟨cutsLeft, cutsRight, rfl, rfl, rfl⟩ := List.map_eq_append_iff.1 hmap
    rw [String.toList_join, List.flatMap_map] at hleft
    simp only [String.toList_ofList, List.flatMap_id', List.append_assoc, List.cons_append] at hleft
    exact eq_nil_of_cut (not_mem_head hframe hhead) hinside ht (hframe ▸ hcuts) hleft

/-- The escape of a character is kept whole, though two bytes of it would fit behind the quote. -/
example : ofFrame (Request.escaped 10 "é").encode 7 = some ["[10,\"", "\\\\u00e9", "\"]"] := by cbv

end EnginePipe.Slices
