/-!
# Text as bytes

What goes over a stream is bytes; a text stands there in UTF-8.  A **line** ends with a newline byte.

* `ofBytes?_bytes`: the bytes of a text hold that text.
* `takeLine_append_newline`: a line is cut at the first newline byte, which stays with it.
* `cutLines`: all the lines that are complete.
* `lineOf`: a line by its number, with its end.
-/

namespace EnginePipe.Text

/-- The bytes of a text. -/
def bytes (s : String) : List UInt8 := s.toUTF8.data.toList

/-- The text that some bytes hold, if they hold one. -/
def ofBytes? (data : List UInt8) : Option String := String.fromUTF8? ⟨data.toArray⟩

/-- What is said about bytes that hold no text. -/
def invalidText : String := "stream did not contain valid UTF-8"

/-- What stands for bytes that hold no text. -/
def replacement : String := "\uFFFD"

/-- The text that some bytes start with, and a mark behind it if its last character is cut off. -/
def cutText (data : List UInt8) : String :=
  match ofBytes? data with
  | some s => s
  | none =>
    match [1, 2, 3].findSome? fun n => ofBytes? (data.take (data.length - n)) with
    | some s => s ++ replacement
    | none => replacement

theorem ofBytes?_bytes (s : String) : ofBytes? (bytes s) = some s := by
  have h : (⟨(bytes s).toArray⟩ : ByteArray) = s.toByteArray := by simp [bytes, String.toUTF8]
  rw [ofBytes?, h, String.fromUTF8?, dif_pos s.isValidUTF8]
  rfl

@[simp] theorem bytes_append (s t : String) : bytes (s ++ t) = bytes s ++ bytes t := by
  simp [bytes, String.toUTF8, String.toByteArray_append]

/-! ### Lines -/

/-- The byte that ends a line. -/
def newline : UInt8 := 10

/-- Cuts off the first line with its end; all of it if there is no newline. -/
def takeLine : List UInt8 → List UInt8 × List UInt8
  | [] => ([], [])
  | b :: rest =>
    if b = newline then ([b], rest)
    else
      let (line, rest) := takeLine rest
      (b :: line, rest)

/-- The complete lines without their ends, and what stands behind the last of them. -/
def cutLines : List UInt8 → List (List UInt8) × List UInt8
  | [] => ([], [])
  | b :: rest =>
    match cutLines rest with
    | (lines, behind) =>
      if b = newline then ([] :: lines, behind)
      else
        match lines with
        | [] => ([], b :: behind)
        | line :: lines => ((b :: line) :: lines, behind)

/-- All the lines with their ends; the last one may have none. -/
def linesWithEnds (data : List UInt8) : List (List UInt8) :=
  let (lines, behind) := cutLines data
  lines.map (· ++ [newline]) ++ if behind.isEmpty then [] else [behind]

/-- The line with a number, counted from zero; empty if there are fewer. -/
def lineOf (data : List UInt8) (i : Nat) : List UInt8 := (linesWithEnds data).getD i []

theorem takeLine_append_newline {line : List UInt8} (h : newline ∉ line) (rest : List UInt8) :
    takeLine (line ++ newline :: rest) = (line ++ [newline], rest) := by
  induction line with
  | nil => simp [takeLine]
  | cons b line ih =>
    simp only [List.mem_cons, not_or] at h
    rw [List.cons_append, takeLine, if_neg (Ne.symm h.1), ih h.2]
    rfl

theorem append_takeLine (data : List UInt8) : (takeLine data).1 ++ (takeLine data).2 = data := by
  induction data with
  | nil => rfl
  | cons b rest ih =>
    rw [takeLine]
    split
    · rfl
    · simp [ih]

theorem cutLines_append_newline {line : List UInt8} (h : newline ∉ line) (rest : List UInt8) :
    cutLines (line ++ newline :: rest) = (line :: (cutLines rest).1, (cutLines rest).2) := by
  induction line with
  | nil => simp [cutLines]
  | cons b line ih =>
    simp only [List.mem_cons, not_or] at h
    rw [List.cons_append, cutLines, ih h.2]
    simp [Ne.symm h.1]

end EnginePipe.Text
