import EnginePipe.Text.Blank
import EnginePipe.Text.Bytes

/-!
# Interpreters

A file that starts with `#!` is executed by the program that its first line names, the **interpreter**.  One
argument may stand behind its path; it is all of the rest of the line.  Only the head of the file is
looked at, and where it is shorter, zero bytes stand behind its end.  A line that is longer than the
head may have an argument that is cut off, but not a path.

* `interpreter?_eq_none`: a file that starts otherwise has no interpreter.
-/

namespace EnginePipe.Host

/-- The program that executes a file. -/
structure Interpreter where
  path : String
  argument : Option String := none
deriving DecidableEq, Repr

namespace Interpreter

/-- How many bytes of a file are looked at. -/
def headSize : Nat := 256

/-- Whether a byte stands between words: a space or a tab. -/
def isGap (b : UInt8) : Bool := b = 32 || b = 9

/-- Whether a byte ends a word. -/
def endsWord (b : UInt8) : Bool := isGap b || b = 0

/-- The path of an interpreter; one that is empty is the working directory. -/
def pathOf (word : List UInt8) : String :=
  if word.isEmpty then "." else (Text.ofBytes? word).getD ""

/-- The argument behind the path. -/
def argumentOf : List UInt8 → Option String
  | [] => none
  | b :: behind =>
    if b = 0 then none
    else
      match behind.dropWhile isGap with
      | [] => none
      | argument => some ((Text.ofBytes? (argument.takeWhile (· ≠ 0))).getD Text.replacement)

/-- The interpreter that a line names. -/
def ofLine? (line : List UInt8) : Option Interpreter :=
  match (Text.dropWhileEnd isGap line).dropWhile isGap with
  | [] => none
  | line =>
    let word := line.takeWhile fun b => !endsWord b
    some ⟨pathOf word, argumentOf (line.drop word.length)⟩

/-- The interpreter that the head of a file names behind its first two bytes. -/
def ofHead? (head : List UInt8) : Option Interpreter :=
  let text := head.takeWhile (· ≠ 0)
  if text.contains Text.newline then ofLine? (text.takeWhile (· ≠ Text.newline))
  else if (head.dropWhile isGap).any endsWord then ofLine? head.dropLast
  else none

end Interpreter

/-- The interpreter of a file. -/
def interpreter? (data : List UInt8) : Option Interpreter :=
  match data.take Interpreter.headSize with
  | 35 :: 33 :: head =>
    Interpreter.ofHead? (head ++ List.replicate (Interpreter.headSize - 2 - head.length) 0)
  | _ => none

theorem interpreter?_eq_none {data : List UInt8} (h : ¬ [35, 33] <+: data) :
    interpreter? data = none := by
  unfold interpreter?
  split
  · next head hd =>
    refine absurd ⟨head ++ data.drop Interpreter.headSize, ?_⟩ h
    have ha := List.take_append_drop Interpreter.headSize data
    rwa [hd] at ha
  · rfl

end EnginePipe.Host
