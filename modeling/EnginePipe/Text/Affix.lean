import EnginePipe.Text.Blank

/-!
# Beginnings and ends

Taking a known text off the beginning or the end of another.

* `stripPrefix?_eq_some_iff`, `between?_eq_some_iff`: what is left.
* `length_trim_le`, `length_lt_of_mem_splitWhere`: trimming and cutting make texts shorter.
-/

namespace EnginePipe.Text

/-- What follows `start`, if the text begins with it. -/
def stripPrefix? : List Char → List Char → Option (List Char)
  | [], cs => some cs
  | _ :: _, [] => none
  | s :: start, c :: cs => if s = c then stripPrefix? start cs else none

/-- What stands before `ending`, if the text ends with it. -/
def stripSuffix? (ending cs : List Char) : Option (List Char) :=
  (stripPrefix? ending.reverse cs.reverse).map List.reverse

/-- What stands between `start` and `ending`, which may not overlap. -/
def between? (start ending cs : List Char) : Option (List Char) :=
  (stripPrefix? start cs).bind (stripSuffix? ending)

theorem stripPrefix?_eq_some_iff {start cs rest : List Char} :
    stripPrefix? start cs = some rest ↔ cs = start ++ rest := by
  induction start generalizing cs with
  | nil => simp [stripPrefix?]
  | cons s start ih =>
    cases cs with
    | nil => simp [stripPrefix?]
    | cons c cs =>
      by_cases h : s = c
      · simp [stripPrefix?, h, ih]
      · simp [stripPrefix?, h, Ne.symm h]

theorem stripSuffix?_eq_some_iff {ending cs rest : List Char} :
    stripSuffix? ending cs = some rest ↔ cs = rest ++ ending := by
  simp only [stripSuffix?, Option.map_eq_some_iff, stripPrefix?_eq_some_iff]
  constructor
  · rintro ⟨r, hr, rfl⟩
    simpa using congrArg List.reverse hr
  · rintro rfl
    exact ⟨rest.reverse, by simp, by simp⟩

theorem between?_eq_some_iff {start ending cs rest : List Char} :
    between? start ending cs = some rest ↔ cs = start ++ (rest ++ ending) := by
  simp only [between?, Option.bind_eq_some_iff, stripPrefix?_eq_some_iff,
    stripSuffix?_eq_some_iff]
  constructor
  · rintro ⟨_, rfl, rfl⟩
    rfl
  · rintro rfl
    exact ⟨_, rfl, rfl⟩

/-! ### Lengths -/

theorem length_lt_of_between? {start ending cs rest : List Char} (hs : start ≠ [])
    (h : between? start ending cs = some rest) : rest.length < cs.length := by
  have hl := List.length_pos_iff.2 hs
  rw [between?_eq_some_iff.1 h, List.length_append, List.length_append]
  omega

theorem length_le_of_stripPrefix? {start cs rest : List Char}
    (h : stripPrefix? start cs = some rest) : rest.length ≤ cs.length := by
  rw [stripPrefix?_eq_some_iff.1 h, List.length_append]
  exact Nat.le_add_left _ _

theorem length_dropWhile_le {α : Type} (p : α → Bool) (xs : List α) :
    (xs.dropWhile p).length ≤ xs.length :=
  (List.dropWhile_sublist p).length_le

theorem length_trim_le (cs : List Char) : (trim cs).length ≤ cs.length := by
  have h := length_dropWhile_le isBlank (cs.dropWhile isBlank).reverse
  rw [List.length_reverse] at h
  rw [trim, dropWhileEnd, List.length_reverse]
  exact Nat.le_trans h (length_dropWhile_le isBlank cs)

theorem length_le_of_mem_splitWhere {p : Char → Bool} {cs piece : List Char}
    (h : piece ∈ splitWhere p cs) : piece.length ≤ (cs.filter (fun c => ¬ p c)).length := by
  rw [← flatten_splitWhere]
  exact (List.sublist_flatten_of_mem h).length_le

theorem length_lt_of_mem_splitWhere {p : Char → Bool} {cs piece : List Char} {c : Char}
    (hc : c ∈ cs) (hp : p c) (h : piece ∈ splitWhere p cs) : piece.length < cs.length := by
  refine Nat.lt_of_le_of_lt (length_le_of_mem_splitWhere h) ?_
  rw [List.length_filter_lt_length_iff_exists]
  exact ⟨c, hc, by simpa using hp⟩

end EnginePipe.Text
