/-!
# UTF-16 units

A character is one 16-bit unit, or a **surrogate pair** when its code point does not fit into 16
bits.  `units` writes a character, `ofUnits` reads a run of units back and refuses a surrogate that
stands alone.  `hex4` is the four-digit form that escapes use for a unit.

* `ofUnits_units`: what `units` writes is read back.
* `ofHex?_hex4`: so is a unit's four-digit form.
-/

namespace EnginePipe.Text

/-- Whether a unit opens a surrogate pair. -/
def isHighSurrogate (u : Nat) : Bool := 0xD800 ≤ u && u < 0xDC00

/-- Whether a unit ends a surrogate pair. -/
def isLowSurrogate (u : Nat) : Bool := 0xDC00 ≤ u && u < 0xE000

/-- The units of a character. -/
def units (c : Char) : List Nat :=
  if c.toNat < 0x10000 then [c.toNat]
  else [0xD800 + (c.toNat - 0x10000) / 0x400, 0xDC00 + (c.toNat - 0x10000) % 0x400]

/-- The characters that a run of units spells; nothing if a surrogate in it has no partner. -/
def ofUnits : List Nat → Option (List Char)
  | [] => some []
  | [u] => if isHighSurrogate u || isLowSurrogate u then none else some [Char.ofNat u]
  | u :: v :: us =>
    if isHighSurrogate u then
      if isLowSurrogate v then
        (ofUnits us).map (Char.ofNat (0x10000 + (u - 0xD800) * 0x400 + (v - 0xDC00)) :: ·)
      else none
    else if isLowSurrogate u then none
    else (ofUnits (v :: us)).map (Char.ofNat u :: ·)

/-! ### Reading back -/

theorem ofUnits_cons_of_plain {u : Nat} (us : List Nat) (hh : isHighSurrogate u = false)
    (hl : isLowSurrogate u = false) :
    ofUnits (u :: us) = (ofUnits us).map (Char.ofNat u :: ·) := by
  cases us with
  | nil => simp [ofUnits, hh, hl]
  | cons v us => simp [ofUnits, hh, hl]

theorem toNat_not_surrogate (c : Char) :
    isHighSurrogate c.toNat = false ∧ isLowSurrogate c.toNat = false := by
  have h : c.toNat < 0xD800 ∨ 0xDFFF < c.toNat ∧ c.toNat < 0x110000 := c.valid
  simp only [isHighSurrogate, isLowSurrogate, Bool.and_eq_false_iff, decide_eq_false_iff_not]
  omega

theorem ofUnits_units_append (c : Char) (us : List Nat) :
    ofUnits (units c ++ us) = (ofUnits us).map (c :: ·) := by
  unfold units
  split
  · obtain ⟨hh, hl⟩ := toNat_not_surrogate c
    simp [ofUnits_cons_of_plain us hh hl, Char.ofNat_toNat]
  · next hc =>
    have h : c.toNat < 0xD800 ∨ 0xDFFF < c.toNat ∧ c.toNat < 0x110000 := c.valid
    have hh : isHighSurrogate (0xD800 + (c.toNat - 0x10000) / 0x400) := by
      simp [isHighSurrogate]; omega
    have hl : isLowSurrogate (0xDC00 + (c.toNat - 0x10000) % 0x400) := by
      simp [isLowSurrogate]; omega
    have hv : 0x10000 + (0xD800 + (c.toNat - 0x10000) / 0x400 - 0xD800) * 0x400
        + (0xDC00 + (c.toNat - 0x10000) % 0x400 - 0xDC00) = c.toNat := by omega
    rw [List.cons_append, List.cons_append, List.nil_append, ofUnits, if_pos hh, if_pos hl, hv,
      Char.ofNat_toNat]

theorem ofUnits_units (cs : List Char) : ofUnits (cs.flatMap units) = some cs := by
  induction cs with
  | nil => rfl
  | cons c cs ih => rw [List.flatMap_cons, ofUnits_units_append, ih]; rfl

/-! ### Four hexadecimal digits -/

/-- The four digits of a unit, lower case. -/
def hex4 (u : Nat) : List Char :=
  [Nat.digitChar (u / 0x1000 % 16), Nat.digitChar (u / 0x100 % 16), Nat.digitChar (u / 0x10 % 16),
    Nat.digitChar (u % 16)]

/-- The value of a hexadecimal digit of either case. -/
def hexValue? (c : Char) : Option Nat :=
  if '0' ≤ c ∧ c ≤ '9' then some (c.toNat - '0'.toNat)
  else if 'a' ≤ c ∧ c ≤ 'f' then some (c.toNat - 'a'.toNat + 10)
  else if 'A' ≤ c ∧ c ≤ 'F' then some (c.toNat - 'A'.toNat + 10)
  else none

/-- Whether a character is a hexadecimal digit. -/
def isHexDigit (c : Char) : Bool := (hexValue? c).isSome

/-- The number that a run of hexadecimal digits writes; nothing if a character is no digit. -/
def ofHex? (ds : List Char) : Option Nat :=
  ds.foldl (fun n d => n.bind fun n => (hexValue? d).map (16 * n + ·)) (some 0)

theorem hexValue?_digitChar : ∀ d, d < 16 → hexValue? (Nat.digitChar d) = some d := by decide

theorem ofHex?_hex4 {u : Nat} (h : u < 0x10000) : ofHex? (hex4 u) = some u := by
  have hd (n : Nat) : hexValue? (Nat.digitChar (n % 16)) = some (n % 16) :=
    hexValue?_digitChar _ (Nat.mod_lt _ (by decide))
  simp only [ofHex?, hex4, List.foldl_cons, List.foldl_nil, hd, Option.bind_some, Option.map_some,
    Option.some.injEq]
  omega

end EnginePipe.Text
