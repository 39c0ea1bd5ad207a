/-!
# Blank characters

What counts as blank is the Unicode property `White_Space`: 25 code points.  `trim` takes blanks
off both ends, `words` cuts a text at blanks.

* `isBlank_of_isWhitespace`: the ASCII blanks are among them.
* `trim_around`: a text that neither begins nor ends with a blank stays.
* `trim_eq_nil_iff`: a text trims to nothing exactly when all of it is blank.
* `splitWhere_ne_nil`, `flatten_words`: cutting loses the cut characters and nothing else.
-/

namespace EnginePipe.Text

/-- The code points with the property `White_Space`. -/
def blankPoints : List Nat :=
  [0x09, 0x0A, 0x0B, 0x0C, 0x0D, 0x20, 0x85, 0xA0, 0x1680, 0x2000, 0x2001, 0x2002, 0x2003, 0x2004,
    0x2005, 0x2006, 0x2007, 0x2008, 0x2009, 0x200A, 0x2028, 0x2029, 0x202F, 0x205F, 0x3000]

/-- Whether a character is blank. -/
def isBlank (c : Char) : Bool := blankPoints.contains c.toNat

theorem isBlank_of_isWhitespace {c : Char} (h : c.isWhitespace) : isBlank c := by
  simp only [Char.isWhitespace, Bool.or_eq_true, decide_eq_true_eq] at h
  rcases h with ((rfl | rfl) | rfl) | rfl <;> decide

/-! ### Ends of a list -/

/-- The list without its longest suffix whose members all satisfy `p`. -/
def dropWhileEnd {α : Type} (p : α → Bool) (xs : List α) : List α :=
  (xs.reverse.dropWhile p).reverse

@[simp] theorem dropWhileEnd_nil {α : Type} (p : α → Bool) : dropWhileEnd p [] = [] := rfl

theorem dropWhileEnd_append_of_pos {α : Type} {p : α → Bool} {xs ys : List α}
    (h : ∀ y ∈ ys, p y) : dropWhileEnd p (xs ++ ys) = dropWhileEnd p xs := by
  unfold dropWhileEnd
  rw [List.reverse_append, List.dropWhile_append_of_pos (by simpa using h)]

theorem dropWhileEnd_concat_of_neg {α : Type} {p : α → Bool} {x : α} (xs : List α)
    (h : ¬ p x) : dropWhileEnd p (xs ++ [x]) = xs ++ [x] := by
  simp [dropWhileEnd, h]

/-! ### Trimming -/

/-- The text without the blanks at its start and end. -/
def trim (cs : List Char) : List Char := dropWhileEnd isBlank (cs.dropWhile isBlank)

@[simp] theorem trim_nil : trim [] = [] := rfl

/-- Blanks around a text that neither begins nor ends with one. -/
theorem trim_around {before after : List Char} (hbefore : ∀ c ∈ before, isBlank c)
    (hafter : ∀ c ∈ after, isBlank c) {first last : Char} (hf : ¬ isBlank first) (hl : ¬ isBlank last)
    (cs : List Char) :
    trim (before ++ first :: (cs ++ [last]) ++ after) = first :: (cs ++ [last]) := by
  rw [trim, List.append_assoc, List.dropWhile_append_of_pos hbefore, List.cons_append,
    List.dropWhile_cons_of_neg hf, ← List.cons_append, dropWhileEnd_append_of_pos hafter,
    ← List.cons_append, dropWhileEnd_concat_of_neg _ hl]

theorem trim_eq_nil_iff {cs : List Char} : trim cs = [] ↔ ∀ c ∈ cs, isBlank c := by
  have key : ∀ xs : List Char, xs.dropWhile isBlank = [] ↔ ∀ c ∈ xs, isBlank c := by
    intro xs
    induction xs with
    | nil => simp
    | cons x xs ih => by_cases h : isBlank x <;> simp [h, ih]
  unfold trim dropWhileEnd
  rw [List.reverse_eq_nil_iff, key]
  constructor
  · intro h
    rw [← key]
    cases hd : cs.dropWhile isBlank with
    | nil => rfl
    | cons x xs =>
      have hx : isBlank x := h x (by rw [hd]; simp)
      have := List.head_dropWhile_not (p := isBlank) (l := cs) (by rw [hd]; simp)
      simp [hd, hx] at this
  · intro h
    rw [(key cs).2 h]
    simp

/-! ### Cutting -/

/-- The pieces between the characters that satisfy `p`; one more piece than there are cuts. -/
def splitWhere (p : Char → Bool) : List Char → List (List Char)
  | [] => [[]]
  | c :: cs =>
    match splitWhere p cs with
    | [] => [[c]]
    | piece :: pieces => if p c then [] :: piece :: pieces else (c :: piece) :: pieces

theorem splitWhere_ne_nil (p : Char → Bool) (cs : List Char) : splitWhere p cs ≠ [] := by
  cases cs with
  | nil => simp [splitWhere]
  | cons c cs =>
    simp only [splitWhere]
    split
    · simp
    · split <;> simp

theorem flatten_splitWhere (p : Char → Bool) (cs : List Char) :
    (splitWhere p cs).flatten = cs.filter (fun c => ¬ p c) := by
  induction cs with
  | nil => rfl
  | cons c cs ih =>
    simp only [splitWhere]
    split
    · next h => exact absurd h (splitWhere_ne_nil p cs)
    · next piece pieces h =>
      rw [h] at ih
      by_cases hc : p c <;> simp_all

/-- The non-empty pieces between blanks. -/
def words (cs : List Char) : List (List Char) :=
  (splitWhere isBlank cs).filter (fun piece => ¬ piece.isEmpty)

theorem flatten_words (cs : List Char) :
    (words cs).flatten = cs.filter (fun c => ¬ isBlank c) := by
  rw [← flatten_splitWhere, words]
  induction splitWhere isBlank cs with
  | nil => rfl
  | cons piece pieces ih =>
    cases piece with
    | nil => simpa using ih
    | cons c piece => simpa using ih

/-! ### Occurrence -/

/-- Whether `needle` is a run of consecutive characters of the text. -/
def occursIn (needle : List Char) : List Char → Bool
  | [] => needle.isEmpty
  | c :: cs => needle.isPrefixOf (c :: cs) || occursIn needle cs

theorem occursIn_iff {needle cs : List Char} : occursIn needle cs ↔ needle <:+: cs := by
  induction cs with
  | nil => simp [occursIn]
  | cons c cs ih => simp [occursIn, ih, List.infix_cons_iff]

end EnginePipe.Text
