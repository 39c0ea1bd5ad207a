import EnginePipe.Json.Value
import EnginePipe.Real.Shortest
import EnginePipe.Text.Units

/-!
# Printing JSON

`Value.compact` has no spaces; `Value.pretty` puts every item on a line of its own, two spaces
deeper than what encloses it.  A string escapes the quote, the backslash and the characters below
`U+0020`, the common ones of these by a letter.  Everything else stands as it is.

A real shows that it is one: it has a point or an exponent.  `realLayout` says which decimal
exponents are written out in full.

* `mem_printString_ge`: a printed string has no control character, so a compact value is one line.
-/

namespace EnginePipe.Json

/-! ### Numbers -/

/-- How the decimal of a real is laid out. -/
structure RealLayout where
  /-- The least exponent of the leading digit that is written positionally. -/
  lowest : Int
  /-- The greatest one. -/
  highest : Int

/-- From `0.00001` up to sixteen digits before the point a real is written positionally, outside
of that with a signed exponent. -/
def realLayout : RealLayout := ⟨-5, 15⟩

/-- The digits of a natural number. -/
def printNat (n : Nat) : List Char := Nat.toDigits 10 n

/-- The digits of an integer, with a minus sign if it is negative. -/
def printInt (n : Int) : List Char :=
  if n < 0 then '-' :: printNat n.natAbs else printNat n.natAbs

/-- A decimal that is not negative, laid out. -/
def RealLayout.print (layout : RealLayout) (d : Real.Decimal) : List Char :=
  let digits := printNat d.digits
  let leading := d.exponent + digits.length - 1
  if d.digits = 0 then ['0', '.', '0']
  else if layout.lowest ≤ leading ∧ leading ≤ layout.highest then
    if 0 ≤ d.exponent then digits ++ List.replicate d.exponent.toNat '0' ++ ['.', '0']
    else if 0 ≤ leading then
      digits.take (leading.toNat + 1) ++ '.' :: digits.drop (leading.toNat + 1)
    else '0' :: '.' :: (List.replicate ((-leading).toNat - 1) '0' ++ digits)
  else
    let fraction := digits.tail
    let point := if fraction.isEmpty then [] else ['.']
    let sign := if leading < 0 then '-' else '+'
    digits.take 1 ++ point ++ fraction ++ 'e' :: sign :: printNat leading.natAbs

/-- The shortest text that reads back as a real. -/
def printReal (x : Real.Binary64) : List Char :=
  let text := realLayout.print x.magnitude.shortest
  if x.negative then '-' :: text else text

/-! ### Strings -/

/-- A character inside a printed string. -/
def printChar (c : Char) : List Char :=
  if c = '"' then ['\\', '"']
  else if c = '\\' then ['\\', '\\']
  else if c = '\n' then ['\\', 'n']
  else if c = '\r' then ['\\', 'r']
  else if c = '\t' then ['\\', 't']
  else if c.toNat = 0x08 then ['\\', 'b']
  else if c.toNat = 0x0C then ['\\', 'f']
  else if c.toNat < 0x20 then '\\' :: 'u' :: Text.hex4 c.toNat
  else [c]

/-- A string between quotes. -/
def printString (s : String) : List Char := '"' :: (s.toList.flatMap printChar ++ ['"'])

theorem digitChar_ge : ∀ d, d < 16 → 0x20 ≤ (Nat.digitChar d).toNat := by decide

theorem mem_hex4_ge {u : Nat} {c : Char} (h : c ∈ Text.hex4 u) : 0x20 ≤ c.toNat := by
  have hd (n : Nat) : 0x20 ≤ (Nat.digitChar (n % 16)).toNat :=
    digitChar_ge _ (Nat.mod_lt _ (by decide))
  simp only [Text.hex4, List.mem_cons, List.not_mem_nil, or_false] at h
  rcases h with rfl | rfl | rfl | rfl <;> exact hd _

theorem mem_printChar_ge {c d : Char} (h : d ∈ printChar c) : 0x20 ≤ d.toNat := by
  unfold printChar at h
  split at h
  · simp at h; rcases h with rfl | rfl <;> decide
  split at h
  · simp at h; subst h; decide
  split at h
  · simp at h; rcases h with rfl | rfl <;> decide
  split at h
  · simp at h; rcases h with rfl | rfl <;> decide
  split at h
  · simp at h; rcases h with rfl | rfl <;> decide
  split at h
  · simp at h; rcases h with rfl | rfl <;> decide
  split at h
  · simp at h; rcases h with rfl | rfl <;> decide
  split at h
  · simp only [List.mem_cons] at h
    rcases h with rfl | rfl | h
    · decide
    · decide
    · exact mem_hex4_ge h
  · simp at h; subst h; omega

theorem mem_printString_ge {s : String} {c : Char} (h : c ∈ printString s) : 0x20 ≤ c.toNat := by
  simp only [printString, List.mem_cons, List.mem_append, List.mem_flatMap, List.not_mem_nil,
    or_false] at h
  rcases h with rfl | ⟨d, _, hd⟩ | rfl
  · decide
  · exact mem_printChar_ge hd
  · decide

/-! ### Values -/

namespace Value

mutual

/-- The compact text of a value. -/
def print : Value → List Char
  | .null => ['n', 'u', 'l', 'l']
  | .bool true => ['t', 'r', 'u', 'e']
  | .bool false => ['f', 'a', 'l', 's', 'e']
  | .integer n => printInt n
  | .real x => printReal x
  | .string s => printString s
  | .array items => '[' :: (printItems items ++ [']'])
  | .object fields => '{' :: (printFields fields ++ ['}'])

/-- The items of an array with commas between them. -/
def printItems : List Value → List Char
  | [] => []
  | [item] => item.print
  | item :: next :: items => item.print ++ ',' :: printItems (next :: items)

/-- The fields of an object with commas between them. -/
def printFields : List (String × Value) → List Char
  | [] => []
  | [(key, value)] => printString key ++ ':' :: value.print
  | (key, value) :: next :: fields =>
    printString key ++ ':' :: (value.print ++ ',' :: printFields (next :: fields))

end

/-- The compact text of a value. -/
def compact (v : Value) : String := String.ofList v.print

/-- The start of a line at some depth. -/
def lineAt (depth : Nat) : List Char := '\n' :: List.replicate (2 * depth) ' '

mutual

/-- The text of a value over several lines, its own items at `depth + 1`. -/
def printLines (depth : Nat) : Value → List Char
  | .array [] => ['[', ']']
  | .array (item :: items) => '[' :: (printItemLines (depth + 1) (item :: items) ++ lineAt depth ++ [']'])
  | .object [] => ['{', '}']
  | .object (field :: fields) =>
    '{' :: (printFieldLines (depth + 1) (field :: fields) ++ lineAt depth ++ ['}'])
  | v => v.print

/-- The items of an array, each on its line. -/
def printItemLines (depth : Nat) : List Value → List Char
  | [] => []
  | [item] => lineAt depth ++ item.printLines depth
  | item :: next :: items =>
    lineAt depth ++ item.printLines depth ++ ',' :: printItemLines depth (next :: items)

/-- The fields of an object, each on its line. -/
def printFieldLines (depth : Nat) : List (String × Value) → List Char
  | [] => []
  | [(key, value)] => lineAt depth ++ printString key ++ ':' :: ' ' :: value.printLines depth
  | (key, value) :: next :: fields =>
    lineAt depth ++ printString key ++ ':' :: ' ' :: (value.printLines depth
      ++ ',' :: printFieldLines depth (next :: fields))

end

/-- The text of a value over several lines. -/
def pretty (v : Value) : String := String.ofList (v.printLines 0)

end Value

end EnginePipe.Json
