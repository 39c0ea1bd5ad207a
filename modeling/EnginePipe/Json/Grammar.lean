import EnginePipe.Json.Reader

/-!
# The grammar of JSON

Which texts are JSON, and which value each of them writes, said part by part and without any order of
reading.  The relations go from the leaves to the whole: the inside of a string and the units in it, the
parts of a number, what stands between brackets, a value that nests at most `depth` deep.

* `IsNumberText`: sign, whole part, fraction and exponent, written one after the other.
* `IsValue`: a value without spaces around it.
* `IsText`: **a text that holds one value and nothing else**, spaces apart.
-/

namespace EnginePipe.Json

/-! ### Strings -/

/-- The inside of a string, and the units that it writes. -/
inductive StringInside : List Char → List Nat → Prop
  | nil : StringInside [] []
  | plain {c : Char} {cs : List Char} {us : List Nat} (hq : c ≠ '"') (hb : c ≠ '\\')
      (hc : 0x20 ≤ c.toNat) (h : StringInside cs us) : StringInside (c :: cs) (Text.units c ++ us)
  | letter {e : Char} {u : Nat} {cs : List Char} {us : List Nat} (he : letterUnit? e = some u)
      (h : StringInside cs us) : StringInside ('\\' :: e :: cs) (u :: us)
  | unit {a b c d : Char} {u : Nat} {cs : List Char} {us : List Nat}
      (hu : Text.ofHex? [a, b, c, d] = some u) (h : StringInside cs us) :
      StringInside ('\\' :: 'u' :: a :: b :: c :: d :: cs) (u :: us)

/-- A string between quotes.  Its surrogates stand in pairs. -/
def IsString (cs : List Char) (s : String) : Prop :=
  ∃ inside us, cs = '"' :: (inside ++ ['"']) ∧ StringInside inside us ∧ Text.ofUnits us = some s.toList

/-! ### Numbers -/

/-- Digits, at least one. -/
def IsDigits (ds : List Char) : Prop := ds ≠ [] ∧ ∀ d ∈ ds, d.isDigit

/-- The digits behind the point. -/
inductive IsFraction : List Char → List Char → Prop
  | none : IsFraction [] []
  | some {ds : List Char} (h : IsDigits ds) : IsFraction ('.' :: ds) ds

/-- The sign of an exponent, and whether it is a minus. -/
inductive IsExponentSign : List Char → Bool → Prop
  | none : IsExponentSign [] false
  | plus : IsExponentSign ['+'] false
  | minus : IsExponentSign ['-'] true

/-- The sign and the digits of an exponent. -/
inductive IsExponent : List Char → Option (Bool × List Char) → Prop
  | none : IsExponent [] none
  | some {letter : Char} {sign : List Char} {negative : Bool} {ds : List Char}
      (hl : letter = 'e' ∨ letter = 'E') (hs : IsExponentSign sign negative) (hd : IsDigits ds) :
      IsExponent (letter :: (sign ++ ds)) (some (negative, ds))

/-- The parts of a number without its sign.  No zero stands before other digits. -/
def IsUnsigned (cs : List Char) (t : NumberText) : Prop :=
  ∃ fraction exponent, cs = t.whole ++ (fraction ++ exponent) ∧ isWhole t.whole ∧
    (∀ d ∈ t.whole, d.isDigit) ∧ IsFraction fraction t.fraction ∧ IsExponent exponent t.exponent

/-- The parts of a number. -/
inductive IsNumberText : List Char → NumberText → Prop
  | plain {cs : List Char} {t : NumberText} (hn : t.negative = false) (h : IsUnsigned cs t) :
      IsNumberText cs t
  | minus {cs : List Char} {t : NumberText} (hn : t.negative = true) (h : IsUnsigned cs t) :
      IsNumberText ('-' :: cs) t

/-- The text of an integer that is in range.  Zero with a minus sign is none. -/
def IsIntegerText (cs : List Char) (n : Int) : Prop :=
  minInteger ≤ n ∧ n ≤ maxInteger ∧ ∃ ds, isWhole ds ∧ (∀ d ∈ ds, d.isDigit) ∧
    (cs = ds ∧ n = Nat.ofDigitChars 10 ds 0 ∨ cs = '-' :: ds ∧ n = -Nat.ofDigitChars 10 ds 0 ∧ n ≠ 0)

/-! ### Values -/

/-- A value that holds no other. -/
inductive IsScalar : List Char → Value → Prop
  | null : IsScalar ['n', 'u', 'l', 'l'] .null
  | yes : IsScalar ['t', 'r', 'u', 'e'] (.bool true)
  | no : IsScalar ['f', 'a', 'l', 's', 'e'] (.bool false)
  | number {cs : List Char} {t : NumberText} {v : Value} (h : IsNumberText cs t)
      (hv : t.value = some v) : IsScalar cs v
  | string {cs : List Char} {s : String} (h : IsString cs s) : IsScalar cs (.string s)

section

variable {α : Type}

/-- Characters that may stand between the parts of a text. -/
def IsSpaces (cs : List Char) : Prop := ∀ c ∈ cs, isSpace c

/-- A part with spaces around it. -/
def IsPadded (P : List Char → α → Prop) (cs : List Char) (x : α) : Prop :=
  ∃ before text after, cs = before ++ (text ++ after) ∧ IsSpaces before ∧ P text x ∧ IsSpaces after

/-- Parts with commas between them, at least one. -/
inductive IsSeparated (P : List Char → α → Prop) : List Char → List α → Prop
  | last {cs : List Char} {x : α} (h : P cs x) : IsSeparated P cs [x]
  | cons {cs rest : List Char} {x : α} {xs : List α} (h : P cs x) (hs : IsSeparated P rest xs) :
      IsSeparated P (cs ++ ',' :: rest) (x :: xs)

/-- What stands between brackets. -/
inductive IsInside (P : List Char → α → Prop) : List Char → List α → Prop
  | empty {cs : List Char} (h : IsSpaces cs) : IsInside P cs []
  | members {cs : List Char} {xs : List α} (h : IsSeparated (IsPadded P) cs xs) : IsInside P cs xs

/-- A key, a colon and a value. -/
def IsField (P : List Char → α → Prop) (cs : List Char) (field : String × α) : Prop :=
  ∃ key before after text, cs = key ++ (before ++ ':' :: (after ++ text)) ∧ IsString key field.1 ∧
    IsSpaces before ∧ IsSpaces after ∧ P text field.2

end

/-- A value that nests at most `depth` deep.  Of several fields with one key the last counts. -/
def IsValue : Nat → List Char → Value → Prop
  | 0, cs, v => IsScalar cs v
  | depth + 1, cs, v =>
    IsScalar cs v ∨
    (∃ inside items, cs = '[' :: (inside ++ [']']) ∧ IsInside (IsValue depth) inside items ∧
      v = .array items) ∨
    ∃ inside fields, cs = '\x7b' :: (inside ++ ['\x7d']) ∧
      IsInside (IsField (IsValue depth)) inside fields ∧ v = .object (fieldsOf fields)

/-- A text that holds one value, nested to any depth, and nothing else. -/
def IsText (text : String) (v : Value) : Prop := ∃ depth, IsPadded (IsValue depth) text.toList v

end EnginePipe.Json
