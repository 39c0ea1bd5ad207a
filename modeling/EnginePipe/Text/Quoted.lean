import EnginePipe.Text.Unseen

/-!
# Quoted text

How names are shown to developers: between quotation marks, with quotation marks, backslashes and
characters that cannot be seen by themselves written as escapes.

* `quotedChar_of_isPlain`: any other character stands for itself.
-/

namespace EnginePipe.Text

/-- The letters of the short escapes. -/
def shortEscapes : List (Char × Char) :=
  [('"', '"'), ('\\', '\\'), ('\n', 'n'), ('\r', 'r'), ('\t', 't'), ('\x00', '0')]

/-- The escape of a character by its number. -/
def numberEscape (c : Char) : List Char :=
  '\\' :: 'u' :: '\x7b' :: (Nat.toDigits 16 c.toNat ++ ['\x7d'])

/-- One character of a quoted text. -/
def quotedChar (c : Char) : List Char :=
  match shortEscapes.lookup c with
  | some letter => ['\\', letter]
  | none => if isUnseen c then numberEscape c else [c]

/-- A text between quotation marks. -/
def quoted (s : String) : String :=
  String.ofList ('"' :: (s.toList.flatMap quotedChar ++ ['"']))

/-- A text that may be missing. -/
def quotedOption : Option String → String
  | none => "None"
  | some s => "Some(" ++ quoted s ++ ")"

theorem quotedChar_of_isPlain {c : Char} (hs : shortEscapes.lookup c = none)
    (hu : isUnseen c = false) : quotedChar c = [c] := by
  simp [quotedChar, hs, hu]

end EnginePipe.Text
