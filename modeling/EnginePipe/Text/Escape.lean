import EnginePipe.Text.Units

/-!
# Escaping for ASCII channels

Source text crosses a channel as ASCII: a character outside ASCII is written as the `\u` escapes of
its UTF-16 units.  Script engines undo such escapes inside their string literals, and there a
character may already stand behind a backslash of its own.  A backslash escapes the next character
when an **odd** run of backslashes ends with it; then the first escape takes that backslash over
instead of writing a second one.

`unescape` is the reading side: the body of a string literal as an engine decodes it.

* `escape_isAscii`: the result is ASCII.
* `escape_of_isAscii`: an ASCII text is its own escape.
-/

namespace EnginePipe.Text

/-- Whether a character is ASCII. -/
def isAscii (c : Char) : Bool := c.toNat < 128

/-! ### Writing -/

/-- The escape of a unit, the backslash included. -/
def escapeUnit (u : Nat) : List Char := '\\' :: 'u' :: hex4 u

/-- The escapes of a run of units; the first one reuses a backslash that is already written when
`escaped` is set. -/
def escapeUnits (escaped : Bool) (us : List Nat) : List Char :=
  if escaped then (us.flatMap escapeUnit).tail else us.flatMap escapeUnit

/-- The escape of a text that follows an odd run of backslashes (`escaped`) or not. -/
def escapeFrom (escaped : Bool) : List Char → List Char
  | [] => []
  | c :: cs =>
    if isAscii c then c :: escapeFrom (c = '\\' && !escaped) cs
    else escapeUnits escaped (units c) ++ escapeFrom false cs

/-- The ASCII form of a source text. -/
def escape (source : String) : String := String.ofList (escapeFrom false source.toList)

theorem escapeFrom_of_isAscii {cs : List Char} (h : ∀ c ∈ cs, isAscii c) (escaped : Bool) :
    escapeFrom escaped cs = cs := by
  induction cs generalizing escaped with
  | nil => rfl
  | cons c cs ih =>
    simp [escapeFrom, h c (by simp), ih (fun d hd => h d (by simp [hd]))]

theorem escape_of_isAscii {source : String} (h : ∀ c ∈ source.toList, isAscii c) :
    escape source = source := by
  rw [escape, escapeFrom_of_isAscii h, String.ofList_toList]

theorem isAscii_digitChar : ∀ d, d < 16 → isAscii (Nat.digitChar d) := by decide

theorem isAscii_of_mem_hex4 {u : Nat} {c : Char} (h : c ∈ hex4 u) : isAscii c := by
  have hd (n : Nat) : isAscii (Nat.digitChar (n % 16)) :=
    isAscii_digitChar _ (Nat.mod_lt _ (by decide))
  simp only [hex4, List.mem_cons, List.not_mem_nil, or_false] at h
  rcases h with rfl | rfl | rfl | rfl <;> exact hd _

theorem isAscii_of_mem_escapeUnits {escaped : Bool} {us : List Nat} {c : Char}
    (h : c ∈ escapeUnits escaped us) : isAscii c := by
  have key : ∀ d ∈ us.flatMap escapeUnit, isAscii d := by
    intro d hd
    obtain ⟨u, _, hu⟩ := List.mem_flatMap.1 hd
    simp only [escapeUnit, List.mem_cons] at hu
    rcases hu with rfl | rfl | hu
    · decide
    · decide
    · exact isAscii_of_mem_hex4 hu
  unfold escapeUnits at h
  split at h
  · exact key c (List.mem_of_mem_tail h)
  · exact key c h

theorem escapeFrom_isAscii {cs : List Char} {escaped : Bool} {c : Char}
    (h : c ∈ escapeFrom escaped cs) : isAscii c := by
  induction cs generalizing escaped with
  | nil => simp [escapeFrom] at h
  | cons d cs ih =>
    rw [escapeFrom] at h
    split at h
    · next hd =>
      rcases List.mem_cons.1 h with rfl | h
      · exact hd
      · exact ih h
    · rcases List.mem_append.1 h with h | h
      · exact isAscii_of_mem_escapeUnits h
      · exact ih h

theorem escape_isAscii (source : String) : ∀ c ∈ (escape source).toList, isAscii c := by
  rw [escape, String.toList_ofList]
  exact fun c h => escapeFrom_isAscii h

/-! ### Reading a string literal -/

/-- The number that the characters behind `\u` write: hexadecimal digits, at least one, with an
optional plus sign before them. -/
def literalUnit? : List Char → Option Nat
  | [] => none
  | '+' :: ds => if ds.isEmpty then none else ofHex? ds
  | ds => ofHex? ds

/-- The units of the body of a string literal.  `\u` takes the next four characters, or what is
left of the body if that is less; `\n` is a line feed; any other escaped character is itself. -/
def literalUnits : List Char → Option (List Nat)
  | [] => some []
  | '\\' :: 'u' :: a :: b :: c :: d :: rest =>
    (literalUnit? [a, b, c, d]).bind fun u => (literalUnits rest).map (u :: ·)
  | '\\' :: 'u' :: rest => (literalUnit? rest).map ([·])
  | '\\' :: 'n' :: rest => (literalUnits rest).map (0x0A :: ·)
  | '\\' :: c :: rest => (literalUnits rest).map (units c ++ ·)
  | ['\\'] => none
  | c :: rest => (literalUnits rest).map (units c ++ ·)

/-- The text that the body of a string literal stands for; nothing if an escape is broken off or a
surrogate has no partner. -/
def unescape (body : List Char) : Option (List Char) := (literalUnits body).bind ofUnits

end EnginePipe.Text
