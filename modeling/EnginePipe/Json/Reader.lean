import EnginePipe.Json.Value
import EnginePipe.Text.Units

/-!
# Reading JSON

A text is read from its front; each reader gives back what it leaves.  The depth to which arrays
and objects may nest is the measure of the recursion: `value depth` reads what nests at most `depth`
deep, and the items of a container are read by `value` one level down.

The grammar is the strict one: four space characters, no sign but a minus, no leading zero, digits
on both sides of a point, no control character in a string, nothing after the value but spaces.

* `read?`: the value of a whole text that nests at most `maxNesting` deep.
* `skipSpace_of_not_isSpace`, `digits_append`: the leaves stop where they should.
-/

namespace EnginePipe.Json

/-- Reads from the front of a text; gives the result and what is left, or nothing. -/
abbrev Reader (α : Type) : Type := List Char → Option (α × List Char)

/-- How deep arrays and objects may nest. -/
def maxNesting : Nat := 127

/-! ### Spaces and words -/

/-- The characters that may stand between the parts of a text. -/
def isSpace (c : Char) : Bool := c = ' ' || c = '\t' || c = '\n' || c = '\r'

/-- The text from its first character that is no space. -/
def skipSpace (cs : List Char) : List Char := cs.dropWhile isSpace

theorem skipSpace_of_not_isSpace {c : Char} (cs : List Char) (h : isSpace c = false) :
    skipSpace (c :: cs) = c :: cs := by
  simp [skipSpace, h]

/-- Reads a fixed word. -/
def word {α : Type} (w : List Char) (result : α) : Reader α :=
  fun cs => (w.isPrefixOf? cs).map (result, ·)

/-! ### Numbers -/

/-- The parts of a written number.  No fraction and a fraction without digits are the same, as the
grammar wants a digit behind the point. -/
structure NumberText where
  negative : Bool
  whole : List Char
  fraction : List Char
  /-- Sign and digits of the exponent, if one is written. -/
  exponent : Option (Bool × List Char)
deriving DecidableEq, Repr

/-- Reads the longest run of digits. -/
def digits (cs : List Char) : List Char × List Char :=
  (cs.takeWhile Char.isDigit, cs.dropWhile Char.isDigit)

theorem digits_append {ds cs : List Char} (hd : ∀ d ∈ ds, d.isDigit)
    (hc : ∀ c ∈ cs.head?, c.isDigit = false) : digits (ds ++ cs) = (ds, cs) := by
  unfold digits
  rw [List.takeWhile_append_of_pos hd, List.dropWhile_append_of_pos hd]
  cases cs with
  | nil => simp
  | cons c cs => simp [hc c (by simp)]

/-- Reads the fraction of a number, if there is one. -/
def fraction : Reader (List Char)
  | '.' :: cs => if (digits cs).1.isEmpty then none else some (digits cs)
  | cs => some ([], cs)

/-- Reads the digits of an exponent. -/
def exponentDigits (negative : Bool) : Reader (Option (Bool × List Char)) :=
  fun cs => if (digits cs).1.isEmpty then none
    else some (some (negative, (digits cs).1), (digits cs).2)

/-- Reads the exponent behind its letter. -/
def signedExponent : Reader (Option (Bool × List Char))
  | '+' :: cs => exponentDigits false cs
  | '-' :: cs => exponentDigits true cs
  | cs => exponentDigits false cs

/-- Reads the exponent of a number, if there is one. -/
def exponent : Reader (Option (Bool × List Char))
  | 'e' :: cs => signedExponent cs
  | 'E' :: cs => signedExponent cs
  | cs => some (none, cs)

/-- Whether digits may stand before the point: at least one, and no zero before others. -/
def isWhole : List Char → Bool
  | [] => false
  | ['0'] => true
  | d :: _ => d ≠ '0'

/-- Reads the parts of a number behind its sign. -/
def unsignedText (negative : Bool) : Reader NumberText := fun cs => do
  let (whole, cs) := digits cs
  if isWhole whole then
    let (fraction, cs) ← fraction cs
    let (exponent, cs) ← exponent cs
    some (⟨negative, whole, fraction, exponent⟩, cs)
  else none

/-- Reads the parts of a number. -/
def numberText : Reader NumberText
  | '-' :: cs => unsignedText true cs
  | cs => unsignedText false cs

/-- The value of a digit. -/
def digitValue (c : Char) : Nat := c.toNat - '0'.toNat

/-- What a significand stays below. -/
def significandBound : Nat := 18446744073709551616

/-- Takes digits into a significand as long as it stays in bounds; gives the significand and
the digits that did not go in. -/
def absorb (significand : Nat) : List Char → Nat × List Char
  | [] => (significand, [])
  | d :: ds =>
    if 10 * significand + digitValue d < significandBound then absorb (10 * significand + digitValue d) ds
    else (significand, d :: ds)

/-- The exponents of ten up to which a power is a single factor. -/
def maxPower : Nat := 308

/-- `m * 10 ^ e`, by one rounded multiplication or division; a smaller exponent takes more than
one division.  Nothing if the result is not finite. -/
def scaleTen (m : Real.Magnitude) (e : Int) : Option Real.Magnitude :=
  if _h : e.natAbs ≤ maxPower then do
    let power ← Real.Magnitude.nearest (Nat.pow 10 e.natAbs) 1
    if 0 ≤ e then m.mul power else m.div power
  else if m = .zero then some m
  else if 0 ≤ e then none
  else do
    let power ← Real.Magnitude.nearest (Nat.pow 10 maxPower) 1
    let smaller ← m.div power
    scaleTen smaller (e + maxPower)
termination_by e.natAbs
decreasing_by simp only [maxPower] at *; omega

/-- The greatest exponent that is counted out. -/
def maxExponent : Nat := 2147483647

/-- The real that a significand and the parts of an exponent write. -/
def realOf (significand : Nat) (places : Int) (exponent : Option (Bool × List Char)) :
    Option Real.Magnitude := do
  let (negative, ds) := exponent.getD (false, ['0'])
  let e := Nat.ofDigitChars 10 ds 0
  if maxExponent < e then
    if negative ∨ significand = 0 then some .zero else none
  else
    let m ← Real.Magnitude.nearest significand 1
    scaleTen m (places + if negative then -(e : Int) else e)

/-- The number that its parts write.  It is an integer if it has neither fraction nor exponent and
is in range; zero with a minus sign is a real. -/
def NumberText.value (t : NumberText) : Option Value :=
  let (whole, dropped) := absorb 0 t.whole
  if t.fraction = [] ∧ t.exponent = none ∧ dropped = [] ∧
      (t.negative = false ∨ whole ≠ 0 ∧ minInteger ≤ -(whole : Int)) then
    some (.integer (if t.negative then -(whole : Int) else whole))
  else
    let (significand, unused) := absorb whole t.fraction
    let places : Int := dropped.length - (t.fraction.length - unused.length)
    (realOf significand places t.exponent).map fun m => .real ⟨t.negative, m⟩

/-- Reads a number. -/
def number : Reader Value := fun cs => do
  let (text, cs) ← numberText cs
  let value ← text.value
  some (value, cs)

/-! ### Strings -/

/-- The unit that a one-letter escape stands for. -/
def letterUnit? (c : Char) : Option Nat :=
  match c with
  | '"' => some 0x22
  | '\\' => some 0x5C
  | '/' => some 0x2F
  | 'b' => some 0x08
  | 'f' => some 0x0C
  | 'n' => some 0x0A
  | 'r' => some 0x0D
  | 't' => some 0x09
  | _ => none

/-- Reads the units of a string up to and with its closing quote. -/
def stringUnits : Reader (List Nat)
  | [] => none
  | '"' :: cs => some ([], cs)
  | '\\' :: 'u' :: a :: b :: c :: d :: cs => do
    let u ← Text.ofHex? [a, b, c, d]
    let (us, cs) ← stringUnits cs
    some (u :: us, cs)
  | '\\' :: c :: cs => do
    let u ← letterUnit? c
    let (us, cs) ← stringUnits cs
    some (u :: us, cs)
  | c :: cs =>
    if c.toNat < 0x20 ∨ c = '\\' then none
    else do
      let (us, cs) ← stringUnits cs
      some (Text.units c ++ us, cs)

/-- Reads a string behind its opening quote. -/
def stringBody : Reader String := fun cs => do
  let (us, cs) ← stringUnits cs
  let text ← Text.ofUnits us
  some (String.ofList text, cs)

/-! ### Values -/

/-- Reads items with commas between them up to and with a closing character; `fuel` bounds their
number. -/
def sequence {α : Type} (item : Reader α) (close : Char) : Nat → Reader (List α)
  | 0, _ => none
  | fuel + 1, cs => do
    let (x, cs) ← item cs
    match skipSpace cs with
    | [] => none
    | c :: cs =>
      if c = ',' then do
        let (xs, cs) ← sequence item close fuel cs
        some (x :: xs, cs)
      else if c = close then some ([x], cs)
      else none

/-- Reads the inside of a container behind its opening character. -/
def enclosed {α : Type} (item : Reader α) (close : Char) : Reader (List α) := fun cs =>
  match skipSpace cs with
  | [] => none
  | c :: rest => if c = close then some ([], rest) else sequence item close cs.length cs

/-- Reads a key, a colon and a value. -/
def field {α : Type} (value : Reader α) : Reader (String × α) := fun cs =>
  match skipSpace cs with
  | '"' :: cs => do
    let (key, cs) ← stringBody cs
    match skipSpace cs with
    | ':' :: cs => do
      let (v, cs) ← value cs
      some ((key, v), cs)
    | _ => none
  | _ => none

/-- Reads a value that holds no other, without spaces before it. -/
def scalar : Reader Value
  | '"' :: cs => (stringBody cs).map fun (s, cs) => (.string s, cs)
  | 'n' :: cs => word ['u', 'l', 'l'] .null cs
  | 't' :: cs => word ['r', 'u', 'e'] (.bool true) cs
  | 'f' :: cs => word ['a', 'l', 's', 'e'] (.bool false) cs
  | cs => number cs

/-- Reads a value that nests at most `depth` deep, and the spaces before it. -/
def value : Nat → Reader Value
  | 0 => fun cs => scalar (skipSpace cs)
  | depth + 1 => fun cs =>
    match skipSpace cs with
    | '[' :: cs => (enclosed (value depth) ']' cs).map fun (items, cs) => (.array items, cs)
    | '{' :: cs =>
      (enclosed (field (value depth)) '}' cs).map fun (fields, cs) => (.object (fieldsOf fields), cs)
    | cs => scalar cs

/-- The value of a text that holds one value and nothing else. -/
def readChars? (cs : List Char) : Option Value := do
  let (v, rest) ← value maxNesting cs
  if (skipSpace rest).isEmpty then some v else none

/-- The value of a text that holds one value and nothing else. -/
def read? (text : String) : Option Value := readChars? text.toList

/-- The items of a text that holds one array and nothing else. -/
def readArray? (text : String) : Option (List Value) :=
  match read? text with
  | some (.array items) => some items
  | _ => none

/-! ### Faults -/

/-- A text that could not be read. -/
structure Fault where
  text : String
  /-- Only an array would have done. -/
  wantsArray : Bool
deriving DecidableEq, Repr

/-- The fault of a text that should hold a value. -/
def Fault.of (text : String) : Fault := ⟨text, false⟩

/-- The fault of a text that should hold an array. -/
def Fault.ofArray (text : String) : Fault := ⟨text, true⟩

end EnginePipe.Json
