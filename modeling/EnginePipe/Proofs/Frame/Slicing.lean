import EnginePipe.Frame.Framing

/-!
# Slices of a frame

An ASCII frame can always be cut.  Atoms are at most seven bytes wide, so a slice that is followed by
another is nearly full: the next atom did not fit.  The sentinel is three bytes wide, and a frame ends
with a bracket; so from a limit of ten bytes on no slice is the sentinel.

* `isSome_ofChars`: an ASCII frame can be cut.
* `lt_width_of_mem_dropLast`: every slice but the last is nearly full.
* `sentinel_not_mem_ofChars`: a slice that is the sentinel needs a limit below ten.
-/

namespace EnginePipe.Slices

/-! ### Widths -/

theorem width_append (xs ys : List Char) : width (xs ++ ys) = width xs + width ys := by
  induction xs with
  | nil => rw [List.nil_append, width, Nat.zero_add]
  | cons x xs ih => rw [List.cons_append, width, width, ih, Nat.add_assoc]

theorem utf8Size_of_isAscii {c : Char} (h : Text.isAscii c) : c.utf8Size = 1 := by
  have hlt : c.toNat < 128 := of_decide_eq_true h
  have hle : c.val.toNat ≤ 127 := Nat.le_of_lt_succ hlt
  rw [Char.utf8Size_eq_one_iff]
  exact UInt32.le_iff_toNat_le.2 hle

theorem width_le_of_splitWidth {n : Nat} {cs a b : List Char} (h : splitWidth n cs = some (a, b)) :
    width a ≤ n := by
  induction cs generalizing n a with
  | nil =>
    rw [splitWidth] at h
    cases h
    exact Nat.zero_le n
  | cons c cs ih =>
    cases n with
    | zero =>
      rw [splitWidth] at h
      cases h
      exact Nat.le_refl 0
      exact List.cons_ne_nil c cs
    | succ n =>
      rw [splitWidth] at h
      split at h
      · next hc =>
        obtain ⟨⟨a', b'⟩, hs, he⟩ := Option.map_eq_some_iff.1 h
        cases he
        have := ih hs
        rw [width]
        omega
      · cases h

theorem splitWidth_of_isAscii {cs : List Char} (h : ∀ c ∈ cs, Text.isAscii c) (n : Nat) :
    ∃ a b, splitWidth n cs = some (a, b) := by
  induction cs generalizing n with
  | nil => exact ⟨[], [], by rw [splitWidth]⟩
  | cons c cs ih =>
    cases n with
    | zero => exact ⟨[], c :: cs, by rw [splitWidth]; exact List.cons_ne_nil c cs⟩
    | succ n =>
      have hc := utf8Size_of_isAscii (h c List.mem_cons_self)
      obtain ⟨a, b, hab⟩ := ih (fun d hd => h d (List.mem_cons_of_mem c hd)) n
      refine ⟨c :: a, b, ?_⟩
      rw [splitWidth, hc, if_pos (by omega), Nat.add_sub_cancel, hab]
      rfl

/-! ### Atoms -/

theorem atomWidth_le (c : Char) (cs : List Char) : atomWidth c cs ≤ minSize := by
  have hc := c.utf8Size_le_four
  rw [minSize]
  unfold atomWidth
  split
  · split
    · omega
    · split <;> omega
    · omega
  · omega

theorem width_le_of_mem_atoms {cs : List Char} {as : List (List Char)} (h : atoms cs = some as) :
    ∀ a ∈ as, width a ≤ minSize := by
  induction hn : cs.length using Nat.strongRecOn generalizing cs as with
  | ind n ih =>
    cases cs with
    | nil =>
      rw [atoms] at h
      cases h
      exact fun a ha => absurd ha List.not_mem_nil
    | cons c cs =>
      rw [atoms] at h
      split at h
      · cases h
      · next a b hs =>
        obtain ⟨bs, hb, rfl⟩ := Option.map_eq_some_iff.1 h
        have hlen := congrArg List.length (splitWidth_append hs)
        rw [List.length_append] at hlen
        rw [List.length_cons] at hn
        intro d hd
        rcases List.mem_cons.1 hd with rfl | hd
        · have ha := width_le_of_splitWidth hs
          have hw := atomWidth_le c cs
          have hc := c.utf8Size_le_four
          rw [minSize] at hw ⊢
          rw [width]
          omega
        · exact ih b.length (by omega) hb rfl d hd

theorem isSome_atoms {cs : List Char} (h : ∀ c ∈ cs, Text.isAscii c) : (atoms cs).isSome := by
  induction hn : cs.length using Nat.strongRecOn generalizing cs with
  | ind n ih =>
    cases cs with
    | nil => rw [atoms]; rfl
    | cons c cs =>
      have hcs : ∀ d ∈ cs, Text.isAscii d := fun d hd => h d (List.mem_cons_of_mem c hd)
      obtain ⟨a, b, hs⟩ := splitWidth_of_isAscii hcs (atomWidth c cs - c.utf8Size)
      have happ := splitWidth_append hs
      have hb : (atoms b).isSome := by
        have hlen := congrArg List.length happ
        rw [List.length_append] at hlen
        rw [List.length_cons] at hn
        refine ih b.length (by omega) (fun d hd => hcs d ?_) rfl
        rw [← happ]
        exact List.mem_append_right a hd
      rw [atoms]
      split
      · next hnone => rw [hs] at hnone; cases hnone
      · next a' b' hs' =>
        rw [hs] at hs'
        cases hs'
        rw [Option.isSome_map]
        exact hb

/-- **An ASCII frame can be cut.** -/
theorem isSome_ofChars {frame : List Char} (h : ∀ c ∈ frame, Text.isAscii c) (size : Nat) :
    (ofChars frame size).isSome := by
  unfold ofChars
  dsimp only
  split
  · rfl
  · rw [Option.isSome_map]
    exact isSome_atoms h

/-! ### Full slices -/

/-- Every slice but the last is so wide that an atom of the greatest width would not fit in; `used`
bytes of the first slice are taken already. -/
def Full (limit : Nat) : Nat → List (List Char) → Prop
  | _, [] => True
  | _, [_] => True
  | used, slice :: next :: slices => limit < used + width slice + minSize ∧ Full limit 0 (next :: slices)

theorem full_prepend {limit used : Nat} {atom : List Char} {slices : List (List Char)}
    (h : Full limit (used + width atom) slices) : Full limit used (prepend atom slices) := by
  cases slices with
  | nil => exact trivial
  | cons slice slices =>
    cases slices with
    | nil => exact trivial
    | cons next slices =>
      refine ⟨?_, h.2⟩
      have := h.1
      rw [width_append]
      omega

theorem full_pack (limit : Nat) {as : List (List Char)} (h : ∀ a ∈ as, width a ≤ minSize) (used : Nat) :
    Full limit used (pack limit used as) := by
  induction as generalizing used with
  | nil => exact trivial
  | cons atom as ih =>
    have ha := h atom List.mem_cons_self
    have has := ih fun a hm => h a (List.mem_cons_of_mem atom hm)
    rw [pack]
    split
    · next hover =>
      have hnext : Full limit 0 (prepend atom (pack limit (width atom) as)) :=
        full_prepend (by rw [Nat.zero_add]; exact has (width atom))
      cases hp : prepend atom (pack limit (width atom) as) with
      | nil => exact trivial
      | cons slice slices =>
        rw [hp] at hnext
        refine ⟨?_, hnext⟩
        rw [width]
        omega
    · exact full_prepend (has (used + width atom))

theorem lt_width_of_mem_dropLast {limit used : Nat} {slices : List (List Char)}
    (h : Full limit used slices) :
    ∀ s ∈ slices.dropLast, limit < used + width s + minSize := by
  induction slices generalizing used with
  | nil => exact fun s hs => absurd hs List.not_mem_nil
  | cons slice slices ih =>
    cases slices with
    | nil => exact fun s hs => absurd hs List.not_mem_nil
    | cons next slices =>
      intro s hs
      rw [List.dropLast_cons_of_ne_nil (List.cons_ne_nil _ _)] at hs
      rcases List.mem_cons.1 hs with rfl | hs
      · exact h.1
      · have := ih h.2 s hs
        omega

/-! ### The sentinel -/

/-- The least limit from which on no slice is the sentinel. -/
def safeSize : Nat := 10

theorem width_sentinel : width Framing.sentinel.toList = 3 := by decide

theorem sentinel_ne_of_bracket (cs : List Char) : Framing.sentinel.toList ≠ cs ++ [']'] := by
  intro h
  have hlast := congrArg List.getLast? h
  rw [List.getLast?_concat] at hlast
  exact absurd hlast (by decide)

/-- **From `safeSize` on no slice is the sentinel.** -/
theorem sentinel_not_mem_ofChars {cs : List Char} {size : Nat} (hsize : safeSize ≤ size)
    {slices : List (List Char)} (h : ofChars (cs ++ [']']) size = some slices) :
    Framing.sentinel.toList ∉ slices := by
  have hflat := flatten_ofChars h
  simp only [ofChars] at h
  split at h
  · cases h
    intro hm
    exact sentinel_ne_of_bracket cs (List.mem_singleton.1 hm)
  · obtain ⟨as, ha, rfl⟩ := Option.map_eq_some_iff.1 h
    intro hm
    have hfull := full_pack (max size minSize) (width_le_of_mem_atoms ha) 0
    generalize pack (max size minSize) 0 as = slices at hflat hm hfull
    have hne : slices ≠ [] := List.ne_nil_of_mem hm
    rw [← List.dropLast_concat_getLast hne] at hm hflat
    rcases List.mem_append.1 hm with hm | hm
    · have hlt := lt_width_of_mem_dropLast hfull _ hm
      rw [width_sentinel] at hlt
      rw [safeSize] at hsize
      rw [minSize] at hlt
      omega
    · rw [← List.mem_singleton.1 hm, List.flatten_append, List.flatten_singleton] at hflat
      have hlast := congrArg List.getLast? hflat
      rw [List.getLast?_concat, List.getLast?_append, show Framing.sentinel.toList.getLast? = some 'D' from rfl,
        Option.some_or, Option.some.injEq] at hlast
      exact absurd hlast (by decide)

end EnginePipe.Slices
