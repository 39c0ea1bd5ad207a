import EnginePipe.Text.Units

/-!
# Cutting a frame into slices

Some engines cannot take long lines.  For these a frame is cut into slices of bounded width, the
width being counted in bytes of UTF-8.  A cut never falls into an **atom**: a backslash escape of
the frame's JSON text, or an escaped backslash with the `uXXXX` behind it, which the engine reads as
one escape of its own.

An atom's width is told from its first characters alone: six bytes for `\u`, seven for `\\u` with
four hexadecimal digits, two for any other backslash, and the character itself otherwise.  Where such
a width would end inside a character the frame cannot be cut.

* `flatten_pack`: the slices put together are the frame.
-/

namespace EnginePipe.Slices

/-- The smallest limit on a slice's width: that of the widest atom. -/
def minSize : Nat := 7

/-- The width of a text in bytes. -/
def width : List Char → Nat
  | [] => 0
  | c :: cs => c.utf8Size + width cs

/-! ### Atoms -/

/-- Whether a text goes on with `u` and four hexadecimal digits. -/
def startsUnit : List Char → Bool
  | 'u' :: a :: b :: c :: d :: _ => [a, b, c, d].all Text.isHexDigit
  | _ => false

/-- The width of the atom that begins with `c` and goes on with `cs`. -/
def atomWidth (c : Char) (cs : List Char) : Nat :=
  if c = '\\' then
    match cs with
    | 'u' :: _ => 6
    | '\\' :: cs => if startsUnit cs then 7 else 2
    | _ => 2
  else c.utf8Size

/-- Splits a text behind `n` bytes, or at its end if it is shorter; nothing if that is inside a
character. -/
def splitWidth : Nat → List Char → Option (List Char × List Char)
  | _, [] => some ([], [])
  | 0, cs => some ([], cs)
  | n + 1, c :: cs =>
    if c.utf8Size ≤ n + 1 then (splitWidth (n + 1 - c.utf8Size) cs).map fun (a, b) => (c :: a, b)
    else none

theorem splitWidth_append {n : Nat} {cs a b : List Char} (h : splitWidth n cs = some (a, b)) :
    a ++ b = cs := by
  induction cs generalizing n a with
  | nil => simp_all [splitWidth]
  | cons c cs ih =>
    cases n with
    | zero => simp_all [splitWidth]
    | succ n =>
      rw [splitWidth] at h
      split at h
      · obtain ⟨⟨a', b'⟩, h', he⟩ := Option.map_eq_some_iff.1 h
        simp only [Prod.mk.injEq] at he
        obtain ⟨rfl, rfl⟩ := he
        rw [List.cons_append, ih h']
      · simp at h

/-- The atoms of a text; nothing if one of them would end inside a character. -/
def atoms : List Char → Option (List (List Char))
  | [] => some []
  | c :: cs =>
    match _h : splitWidth (atomWidth c cs - c.utf8Size) cs with
    | none => none
    | some (a, b) => (atoms b).map ((c :: a) :: ·)
termination_by cs => cs.length
decreasing_by
  have := congrArg List.length (splitWidth_append _h)
  simp at this ⊢
  omega

theorem flatten_atoms {cs : List Char} {as : List (List Char)} (h : atoms cs = some as) :
    as.flatten = cs := by
  fun_induction atoms cs generalizing as with
  | case1 => simp_all
  | case2 => simp at h
  | case3 c cs a b hs ih =>
    obtain ⟨bs, hb, rfl⟩ := Option.map_eq_some_iff.1 h
    rw [List.flatten_cons, ih hb, List.cons_append, splitWidth_append hs]

/-! ### Slices -/

/-- Puts an atom before the first slice. -/
def prepend (atom : List Char) : List (List Char) → List (List Char)
  | [] => [atom]
  | slice :: slices => (atom ++ slice) :: slices

/-- Packs atoms into slices of at most `limit` bytes, as many as fit into each; `used` bytes of the
first slice are taken already. -/
def pack (limit : Nat) : Nat → List (List Char) → List (List Char)
  | _, [] => [[]]
  | used, atom :: as =>
    if limit < used + width atom then [] :: prepend atom (pack limit (width atom) as)
    else prepend atom (pack limit (used + width atom) as)

theorem flatten_prepend (atom : List Char) (slices : List (List Char)) :
    (prepend atom slices).flatten = atom ++ slices.flatten := by
  cases slices <;> simp [prepend]

theorem flatten_pack (limit used : Nat) (as : List (List Char)) :
    (pack limit used as).flatten = as.flatten := by
  induction as generalizing used with
  | nil => rfl
  | cons atom as ih =>
    rw [pack]
    split <;> simp [flatten_prepend, ih]

/-- The slices of a frame, each at most `max size minSize` bytes wide; nothing if the frame cannot be
cut.  A frame that is narrow enough is its own slice. -/
def ofChars (frame : List Char) (size : Nat) : Option (List (List Char)) :=
  let limit := max size minSize
  if width frame ≤ limit then some [frame] else (atoms frame).map (pack limit 0)

theorem flatten_ofChars {frame : List Char} {size : Nat} {slices : List (List Char)}
    (h : ofChars frame size = some slices) : slices.flatten = frame := by
  simp only [ofChars] at h
  split at h
  · simp_all [← Option.some.inj h]
  · obtain ⟨as, ha, rfl⟩ := Option.map_eq_some_iff.1 h
    rw [flatten_pack, flatten_atoms ha]

/-- The slices of a frame. -/
def ofFrame (frame : String) (size : Nat) : Option (List String) :=
  (ofChars frame.toList size).map (·.map String.ofList)

end EnginePipe.Slices
