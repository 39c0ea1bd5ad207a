import EnginePipe.Text.Escape

/-!
# Escaping and string literals

The reader of a literal takes a backslash and the character behind it in one step, so between two of its steps
the run of backslashes that has gone by is even.  There a character outside ASCII gets escapes with backslashes
of their own.  Behind a backslash the first escape takes that backslash over, and the reader still takes the
whole run of escapes for the units of the character.  In the four characters behind `\u` neither a backslash nor
a character outside ASCII is read, so what is broken there stays broken.

* `escapeFrom_append`: a text is escaped part by part, if the run of backslashes between them is known.
* `count_escapeFrom`: characters that no escape has stay as many as they are.
* `literalUnits_escapeFrom`: **a literal writes the same units after escaping**.
-/

namespace EnginePipe.Text

/-! ### Parts of a text -/

/-- Whether a text ends with an odd run of backslashes; `escaped` says it of the text before it. -/
def endsEscaped (escaped : Bool) : List Char → Bool
  | [] => escaped
  | c :: cs => endsEscaped (c = '\\' && !escaped) cs

/-- ASCII without a backslash. -/
def IsBare (cs : List Char) : Prop := ∀ c ∈ cs, isAscii c ∧ c ≠ '\\'

theorem ne_backslash_of_not_isAscii {c : Char} (h : ¬isAscii c) : c ≠ '\\' := by
  rintro rfl
  exact h (by decide)

theorem escapeFrom_cons_of_isAscii {c : Char} (h : isAscii c) (escaped : Bool) (cs : List Char) :
    escapeFrom escaped (c :: cs) = c :: escapeFrom (c = '\\' && !escaped) cs := by
  rw [escapeFrom, if_pos h]

theorem escapeFrom_cons_of_not_isAscii {c : Char} (h : ¬isAscii c) (escaped : Bool) (cs : List Char) :
    escapeFrom escaped (c :: cs) = escapeUnits escaped (units c) ++ escapeFrom false cs := by
  rw [escapeFrom, if_neg h]

theorem escapeFrom_append (escaped : Bool) (xs ys : List Char) :
    escapeFrom escaped (xs ++ ys) = escapeFrom escaped xs ++ escapeFrom (endsEscaped escaped xs) ys := by
  induction xs generalizing escaped with
  | nil => rfl
  | cons x xs ih =>
    by_cases hx : isAscii x
    · rw [List.cons_append, escapeFrom_cons_of_isAscii hx, escapeFrom_cons_of_isAscii hx, ih]
      rfl
    · have hne := ne_backslash_of_not_isAscii hx
      rw [List.cons_append, escapeFrom_cons_of_not_isAscii hx, escapeFrom_cons_of_not_isAscii hx, ih,
        endsEscaped, decide_eq_false hne, Bool.false_and, List.append_assoc]

theorem endsEscaped_append (escaped : Bool) (xs ys : List Char) :
    endsEscaped escaped (xs ++ ys) = endsEscaped (endsEscaped escaped xs) ys := by
  induction xs generalizing escaped with
  | nil => rfl
  | cons x xs ih => exact ih (x = '\\' && !escaped)

theorem IsBare.endsEscaped {cs : List Char} (h : IsBare cs) : endsEscaped false cs = false := by
  induction cs with
  | nil => rfl
  | cons c cs ih =>
    have hc := (h c List.mem_cons_self).2
    rw [Text.endsEscaped, decide_eq_false hc]
    exact ih fun d hd => h d (List.mem_cons_of_mem c hd)

theorem IsBare.escapeFrom {cs : List Char} (h : IsBare cs) (escaped : Bool) : escapeFrom escaped cs = cs :=
  escapeFrom_of_isAscii (fun c hc => (h c hc).1) escaped

/-- The escape of what stands between two texts. -/
theorem IsBare.escapeFrom_between {start behind : List Char} (hs : IsBare start) (hb : ∀ c ∈ behind, isAscii c)
    (inside : List Char) :
    Text.escapeFrom false (start ++ (inside ++ behind)) = start ++ (Text.escapeFrom false inside ++ behind) := by
  rw [escapeFrom_append, hs.endsEscaped, hs.escapeFrom, escapeFrom_append, escapeFrom_of_isAscii hb]

theorem isBare_of_all {cs : List Char} (h : cs.all fun c => isAscii c && c != '\\') : IsBare cs := by
  intro c hc
  simpa using List.all_eq_true.1 h c hc

theorem isBare_nil : IsBare [] := fun _ h => absurd h List.not_mem_nil

theorem isBare_cons {c : Char} {cs : List Char} (ha : isAscii c) (hc : c ≠ '\\') (h : IsBare cs) :
    IsBare (c :: cs) := by
  intro d hd
  rcases List.mem_cons.1 hd with rfl | hd
  · exact ⟨ha, hc⟩
  · exact h d hd

theorem isBare_append {xs ys : List Char} (hx : IsBare xs) (hy : IsBare ys) : IsBare (xs ++ ys) := by
  intro c hc
  rcases List.mem_append.1 hc with hc | hc
  · exact hx c hc
  · exact hy c hc

theorem escape_eq_self_iff {s : String} : escape s = s ↔ ∀ c ∈ s.toList, isAscii c := by
  constructor
  · intro h
    rw [← h]
    exact escape_isAscii s
  · exact escape_of_isAscii

/-! ### Units -/

theorem lt_of_mem_units {c : Char} {u : Nat} (h : u ∈ units c) : u < 0x10000 := by
  have hc : c.toNat < 0xD800 ∨ 0xDFFF < c.toNat ∧ c.toNat < 0x110000 := c.valid
  unfold units at h
  split at h
  · rw [List.mem_singleton.1 h]
    omega
  · rcases List.mem_cons.1 h with rfl | h
    · omega
    · rw [List.mem_singleton.1 h]
      omega

theorem units_ne_nil (c : Char) : units c ≠ [] := by
  unfold units
  split <;> exact List.cons_ne_nil _ _

theorem isHexDigit_of_ofHex? {ds : List Char} {u : Nat} (h : ofHex? ds = some u) :
    ∀ d ∈ ds, isHexDigit d := by
  have hnone : ∀ ds : List Char,
      ds.foldl (fun (n : Option Nat) d => n.bind fun n => (hexValue? d).map (16 * n + ·)) none = none := by
    intro ds
    induction ds with
    | nil => rfl
    | cons d ds ih => exact ih
  have key : ∀ (ds : List Char) (n : Nat),
      (ds.foldl (fun n d => n.bind fun n => (hexValue? d).map (16 * n + ·)) (some n)).isSome →
      ∀ d ∈ ds, isHexDigit d := by
    intro ds
    induction ds with
    | nil =>
      intro n _ d hd
      cases hd
    | cons e ds ih =>
      intro n hn d hd
      rw [List.foldl_cons, Option.bind_some] at hn
      cases he : hexValue? e with
      | none =>
        rw [he, Option.map_none, hnone] at hn
        cases hn
      | some v =>
        rw [he, Option.map_some] at hn
        rcases List.mem_cons.1 hd with rfl | hd
        · rw [isHexDigit, he]
          rfl
        · exact ih _ hn d hd
  exact key ds 0 (Option.isSome_of_mem h)

theorem isAscii_of_isHexDigit {c : Char} (h : isHexDigit c) : isAscii c ∧ c ≠ '\\' ∧ c ≠ '"' := by
  have h0 : '0' ≤ c → 48 ≤ c.toNat := id
  have h9 : c ≤ '9' → c.toNat ≤ 57 := id
  have ha : 'a' ≤ c → 97 ≤ c.toNat := id
  have hf : c ≤ 'f' → c.toNat ≤ 102 := id
  have hA : 'A' ≤ c → 65 ≤ c.toNat := id
  have hF : c ≤ 'F' → c.toNat ≤ 70 := id
  have hrange : 48 ≤ c.toNat ∧ c.toNat ≤ 57 ∨ 97 ≤ c.toNat ∧ c.toNat ≤ 102 ∨ 65 ≤ c.toNat ∧ c.toNat ≤ 70 := by
    unfold isHexDigit hexValue? at h
    split at h
    · next hd => exact Or.inl ⟨h0 hd.1, h9 hd.2⟩
    split at h
    · next hd => exact Or.inr (Or.inl ⟨ha hd.1, hf hd.2⟩)
    split at h
    · next hd => exact Or.inr (Or.inr ⟨hA hd.1, hF hd.2⟩)
    · cases h
  refine ⟨decide_eq_true (by omega), ?_, ?_⟩
  · rintro rfl
    exact absurd hrange (by decide)
  · rintro rfl
    exact absurd hrange (by decide)

theorem isBare_of_ofHex? {ds : List Char} {u : Nat} (h : ofHex? ds = some u) : IsBare ds := by
  intro d hd
  obtain ⟨hascii, hne, _⟩ := isAscii_of_isHexDigit (isHexDigit_of_ofHex? h d hd)
  exact ⟨hascii, hne⟩

theorem isBare_of_literalUnit? {ds : List Char} {u : Nat} (h : literalUnit? ds = some u) : IsBare ds := by
  unfold literalUnit? at h
  split at h
  · cases h
  · next ds =>
    split at h
    · cases h
    · intro d hd
      rcases List.mem_cons.1 hd with rfl | hd
      · decide
      · exact isBare_of_ofHex? h d hd
  · exact isBare_of_ofHex? h

theorem literalUnit?_hex4 {u : Nat} (h : u < 0x10000) : literalUnit? (hex4 u) = some u := by
  have hplus : ∀ d, d < 16 → Nat.digitChar d ≠ '+' := by decide
  unfold literalUnit?
  split
  · next he => cases he
  · next he => exact absurd (List.cons.inj he).1 (hplus _ (Nat.mod_lt _ (by decide)))
  · exact ofHex?_hex4 h

/-! ### Steps of the reader -/

theorem literalUnits_unit (cs : List Char) :
    literalUnits ('\\' :: 'u' :: cs) =
      (literalUnit? (cs.take 4)).bind fun u => (literalUnits (cs.drop 4)).map (u :: ·) := by
  have hlast : ∀ u : Option Nat, u.map ([·]) = u.bind fun u => (literalUnits []).map (u :: ·) := by
    intro u
    cases u <;> rfl
  match cs with
  | a :: b :: c :: d :: rest => rw [literalUnits]; rfl
  | [] => rfl
  | [a] => exact hlast (literalUnit? [a])
  | [a, b] => exact hlast (literalUnit? [a, b])
  | [a, b, c] => exact hlast (literalUnit? [a, b, c])

theorem literalUnits_escaped {c : Char} (hu : c ≠ 'u') (hn : c ≠ 'n') (cs : List Char) :
    literalUnits ('\\' :: c :: cs) = (literalUnits cs).map (units c ++ ·) := by
  rw [literalUnits] <;> simp_all

theorem literalUnits_plain {c : Char} (hc : c ≠ '\\') (cs : List Char) :
    literalUnits (c :: cs) = (literalUnits cs).map (units c ++ ·) := by
  rw [literalUnits] <;> simp_all

/-- Escapes are read as the units that they were written for. -/
theorem literalUnits_escapes {us : List Nat} (h : ∀ u ∈ us, u < 0x10000) (cs : List Char) :
    literalUnits (us.flatMap escapeUnit ++ cs) = (literalUnits cs).map (us ++ ·) := by
  induction us with
  | nil => simp
  | cons u us ih =>
    have hu := literalUnit?_hex4 (h u List.mem_cons_self)
    have hus := ih fun v hv => h v (List.mem_cons_of_mem u hv)
    have htake : ∀ rest, (hex4 u ++ rest).take 4 = hex4 u := fun rest => rfl
    have hdrop : ∀ rest, (hex4 u ++ rest).drop 4 = rest := fun rest => rfl
    rw [List.flatMap_cons, List.append_assoc, escapeUnit, List.cons_append, List.cons_append,
      literalUnits_unit, htake, hdrop, hu, Option.bind_some, hus, Option.map_map]
    rfl

/-! ### Steps of the writer -/

theorem escapeFrom_cons_of_ne {c : Char} (ha : isAscii c) (hc : c ≠ '\\') (cs : List Char) :
    escapeFrom false (c :: cs) = c :: escapeFrom false cs := by
  rw [escapeFrom_cons_of_isAscii ha, decide_eq_false hc, Bool.false_and]

theorem escapeFrom_false_of_not_isAscii {c : Char} (h : ¬isAscii c) (cs : List Char) :
    escapeFrom false (c :: cs) = (units c).flatMap escapeUnit ++ escapeFrom false cs :=
  escapeFrom_cons_of_not_isAscii h false cs

theorem escapeFrom_pair {c : Char} (h : isAscii c) (cs : List Char) :
    escapeFrom false ('\\' :: c :: cs) = '\\' :: c :: escapeFrom false cs := by
  have hb : isAscii '\\' := by decide
  rw [escapeFrom_cons_of_isAscii hb, escapeFrom_cons_of_isAscii h]
  simp

/-- Behind a backslash the first escape of a character has none of its own. -/
theorem escapeFrom_pair_of_not_isAscii {c : Char} (h : ¬isAscii c) (cs : List Char) :
    escapeFrom false ('\\' :: c :: cs) = (units c).flatMap escapeUnit ++ escapeFrom false cs := by
  have hb : isAscii '\\' := by decide
  have hunits : '\\' :: escapeUnits true (units c) = (units c).flatMap escapeUnit := by
    cases hus : units c with
    | nil => exact absurd hus (units_ne_nil c)
    | cons u us => rfl
  rw [escapeFrom_cons_of_isAscii hb, ← hunits, List.cons_append]
  exact congrArg ('\\' :: ·) (escapeFrom_cons_of_not_isAscii h true cs)

/-! ### Literals -/

theorem escapeFrom_take_drop {n : Nat} {cs : List Char} (h : IsBare (cs.take n)) :
    (escapeFrom false cs).take n = cs.take n ∧ (escapeFrom false cs).drop n = escapeFrom false (cs.drop n) := by
  induction n generalizing cs with
  | zero => exact ⟨rfl, rfl⟩
  | succ n ih =>
    cases cs with
    | nil => exact ⟨rfl, rfl⟩
    | cons c cs =>
      rw [List.take_succ_cons] at h
      obtain ⟨hc, hne⟩ := h c List.mem_cons_self
      obtain ⟨htake, hdrop⟩ := ih fun d hd => h d (List.mem_cons_of_mem c hd)
      rw [escapeFrom_cons_of_ne hc hne]
      exact ⟨congrArg (c :: ·) htake, hdrop⟩

theorem isBare_take_of_escapeFrom {n : Nat} {cs : List Char} (h : IsBare ((escapeFrom false cs).take n)) :
    IsBare (cs.take n) := by
  induction n generalizing cs with
  | zero => exact h
  | succ n ih =>
    cases cs with
    | nil => exact h
    | cons c cs =>
      by_cases hc : isAscii c
      · rw [escapeFrom_cons_of_isAscii hc, List.take_succ_cons] at h
        have hne := (h c List.mem_cons_self).2
        rw [decide_eq_false hne, Bool.false_and] at h
        intro d hd
        rcases List.mem_cons.1 hd with rfl | hd
        · exact ⟨hc, hne⟩
        · exact ih (fun e he => h e (List.mem_cons_of_mem c he)) d hd
      · -- an escape begins with a backslash
        rw [escapeFrom_cons_of_not_isAscii hc] at h
        cases hus : units c with
        | nil => exact absurd hus (units_ne_nil c)
        | cons u us =>
          rw [hus] at h
          exact absurd rfl (h '\\' List.mem_cons_self).2

/-- A unit behind `\u` is read from the same characters, or from none. -/
theorem literalUnit?_escapeFrom (cs : List Char) :
    literalUnit? ((escapeFrom false cs).take 4) = literalUnit? (cs.take 4) := by
  apply Option.ext
  intro u
  constructor
  · intro hu
    have hbare := isBare_take_of_escapeFrom (isBare_of_literalUnit? hu)
    rwa [(escapeFrom_take_drop hbare).1] at hu
  · intro hu
    rwa [(escapeFrom_take_drop (isBare_of_literalUnit? hu)).1]

/-- Whatever is escaped by a backslash, the reader takes the same units for it. -/
theorem literalUnits_escapeFrom_pair {cs : List Char}
    (ih : ∀ ds : List Char, ds.length ≤ cs.length → literalUnits (escapeFrom false ds) = literalUnits ds)
    (c : Char) : literalUnits (escapeFrom false ('\\' :: c :: cs)) = literalUnits ('\\' :: c :: cs) := by
  have hcs := ih cs (Nat.le_refl _)
  by_cases hu : c = 'u'
  · subst hu
    rw [escapeFrom_pair (by decide), literalUnits_unit, literalUnits_unit, literalUnit?_escapeFrom]
    cases hunit : literalUnit? (cs.take 4) with
    | none => rfl
    | some u =>
      have hdrop := ih (cs.drop 4) (by rw [List.length_drop]; omega)
      rw [(escapeFrom_take_drop (isBare_of_literalUnit? hunit)).2, hdrop]
  by_cases hn : c = 'n'
  · subst hn
    rw [escapeFrom_pair (by decide), literalUnits, literalUnits, hcs]
  by_cases ha : isAscii c
  · rw [escapeFrom_pair ha, literalUnits_escaped hu hn, literalUnits_escaped hu hn, hcs]
  · rw [escapeFrom_pair_of_not_isAscii ha, literalUnits_escapes fun u => lt_of_mem_units,
      literalUnits_escaped hu hn, hcs]

/-- **A literal writes the same units after escaping.** -/
theorem literalUnits_escapeFrom (cs : List Char) : literalUnits (escapeFrom false cs) = literalUnits cs := by
  induction hn : cs.length using Nat.strongRecOn generalizing cs with
  | ind n ih =>
    cases cs with
    | nil => rfl
    | cons c cs =>
      rw [List.length_cons] at hn
      by_cases hc : c = '\\'
      · subst hc
        cases cs with
        | nil => rfl
        | cons d cs =>
          rw [List.length_cons] at hn
          exact literalUnits_escapeFrom_pair (fun ds hds => ih ds.length (by omega) ds rfl) d
      · have hcs := ih cs.length (by omega) cs rfl
        rw [literalUnits_plain hc]
        by_cases ha : isAscii c
        · rw [escapeFrom_cons_of_ne ha hc, literalUnits_plain hc, hcs]
        · rw [escapeFrom_false_of_not_isAscii ha, literalUnits_escapes fun u => lt_of_mem_units, hcs]

theorem unescape_escape (s : String) : unescape (escape s).toList = unescape s.toList := by
  rw [unescape, unescape, escape, String.toList_ofList, literalUnits_escapeFrom]

/-! ### Characters that no escape has -/

theorem isHexDigit_digitChar : ∀ d, d < 16 → isHexDigit (Nat.digitChar d) := by decide

theorem isHexDigit_of_mem_hex4 {u : Nat} {c : Char} (h : c ∈ hex4 u) : isHexDigit c := by
  have hd (n : Nat) : isHexDigit (Nat.digitChar (n % 16)) := isHexDigit_digitChar _ (Nat.mod_lt _ (by decide))
  simp only [hex4, List.mem_cons, List.not_mem_nil, or_false] at h
  rcases h with rfl | rfl | rfl | rfl <;> exact hd _

section

variable {x : Char} (hb : x ≠ '\\') (hu : x ≠ 'u') (hx : ¬isHexDigit x)

include hb hu hx

theorem not_mem_escapeUnits (escaped : Bool) (us : List Nat) : x ∉ escapeUnits escaped us := by
  have key : x ∉ us.flatMap escapeUnit := by
    intro h
    obtain ⟨u, _, hm⟩ := List.mem_flatMap.1 h
    rcases List.mem_cons.1 hm with he | hm
    · exact hb he
    rcases List.mem_cons.1 hm with he | hm
    · exact hu he
    · exact hx (isHexDigit_of_mem_hex4 hm)
  unfold escapeUnits
  split
  · exact fun h => key (List.mem_of_mem_tail h)
  · exact key

/-- Escaping neither brings in nor takes away what no escape has in it. -/
theorem count_escapeFrom (ha : isAscii x) (escaped : Bool) (cs : List Char) :
    (escapeFrom escaped cs).count x = cs.count x := by
  induction cs generalizing escaped with
  | nil => rfl
  | cons c cs ih =>
    by_cases hc : isAscii c
    · rw [escapeFrom_cons_of_isAscii hc, List.count_cons, List.count_cons, ih]
    · have hne : c ≠ x := fun he => hc (he ▸ ha)
      rw [escapeFrom_cons_of_not_isAscii hc, List.count_append, ih,
        List.count_eq_zero_of_not_mem (not_mem_escapeUnits hb hu hx escaped _), Nat.zero_add,
        List.count_cons_of_ne hne]

end

end EnginePipe.Text
