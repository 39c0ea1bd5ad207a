import EnginePipe.Text.Bytes

/-!
# Lines as bytes

In UTF-8 the newline byte stands for the newline character and for nothing else.  So the bytes of some
lines, each with its end, are cut into the bytes of these lines.

* `newline_not_mem_bytes`: a text without a newline has no newline byte.
* `cutLines_bytes_joinLines`: the lines of a written text are found again.
* `lineOf_zero`, `lineOf_succ`: taking one line after the other gives all of them.
-/

namespace EnginePipe.Text

/-! ### The newline byte -/

theorem bytes_eq_flatMap (s : String) : bytes s = s.toList.flatMap String.utf8EncodeChar := by
  have h : s.toByteArray = s.toList.utf8Encode := String.utf8Encode_toList.symm
  rw [bytes, String.toUTF8, h, List.utf8Encode, List.data_toByteArray]

theorem newline_ne_ofNat {n : Nat} (h : 128 ≤ n) (hn : n < 256) : newline ≠ UInt8.ofNat n := by
  intro he
  have h10 : newline.toNat = 10 := rfl
  rw [he, UInt8.toNat_ofNat'] at h10
  omega

theorem newline_not_mem_utf8EncodeChar {c : Char} (h : c ≠ '\n') :
    newline ∉ String.utf8EncodeChar c := by
  have hc : c.val.toNat ≠ 10 := fun he => h (Char.toNat_inj.1 he)
  unfold String.utf8EncodeChar
  dsimp only
  split
  · intro hm
    have he : newline.toNat = (UInt8.ofNat c.val.toNat).toNat := congrArg _ (List.mem_singleton.1 hm)
    have h10 : newline.toNat = 10 := rfl
    rw [UInt8.toNat_ofNat', h10] at he
    omega
  split
  · intro hm
    simp only [List.mem_cons, List.not_mem_nil, or_false] at hm
    rcases hm with hm | hm <;> exact newline_ne_ofNat (by omega) (by omega) hm
  split
  · intro hm
    simp only [List.mem_cons, List.not_mem_nil, or_false] at hm
    rcases hm with hm | hm | hm <;> exact newline_ne_ofNat (by omega) (by omega) hm
  · intro hm
    simp only [List.mem_cons, List.not_mem_nil, or_false] at hm
    rcases hm with hm | hm | hm | hm <;> exact newline_ne_ofNat (by omega) (by omega) hm

theorem newline_not_mem_bytes {s : String} (h : '\n' ∉ s.toList) : newline ∉ bytes s := by
  rw [bytes_eq_flatMap]
  intro hm
  obtain ⟨c, hc, hb⟩ := List.mem_flatMap.1 hm
  have hne : c ≠ '\n' := fun he => h (he ▸ hc)
  exact newline_not_mem_utf8EncodeChar hne hb

/-! ### Written lines -/

theorem bytes_newline : bytes "\n" = [newline] := by
  rw [bytes_eq_flatMap]
  decide

theorem bytes_line (line : String) : bytes (line ++ "\n") = bytes line ++ [newline] := by
  rw [bytes_append, bytes_newline]

theorem bytes_line_ne_nil (line : String) : bytes (line ++ "\n") ≠ [] := by
  rw [bytes_line]
  exact List.append_ne_nil_of_right_ne_nil _ (List.cons_ne_nil _ _)

/-- A line that is written alone is taken whole. -/
theorem takeLine_bytes_line {line : String} (h : '\n' ∉ line.toList) :
    takeLine (bytes (line ++ "\n")) = (bytes (line ++ "\n"), []) := by
  rw [bytes_line, takeLine_append_newline (newline_not_mem_bytes h) []]

/-- The text of lines, each with its end. -/
def joinLines (lines : List String) : String := String.join (lines.map (· ++ "\n"))

theorem joinLines_cons (line : String) (lines : List String) :
    joinLines (line :: lines) = line ++ "\n" ++ joinLines lines := by
  rw [joinLines, List.map_cons, String.join_cons]
  rfl

theorem joinLines_append (xs ys : List String) :
    joinLines (xs ++ ys) = joinLines xs ++ joinLines ys := by
  induction xs with
  | nil => rw [List.nil_append, show joinLines [] = "" from rfl, String.empty_append]
  | cons x xs ih =>
    rw [List.cons_append, joinLines_cons, joinLines_cons, ih]
    simp only [String.append_assoc]

/-- **The lines of a written text are found again**, and nothing is left behind the last. -/
theorem cutLines_bytes_joinLines {lines : List String} (h : ∀ line ∈ lines, '\n' ∉ line.toList) :
    cutLines (bytes (joinLines lines)) = (lines.map bytes, []) := by
  induction lines with
  | nil => rfl
  | cons line lines ih =>
    have hline := newline_not_mem_bytes (h line List.mem_cons_self)
    have hlines := ih fun l hl => h l (List.mem_cons_of_mem _ hl)
    rw [joinLines_cons, bytes_append, bytes_line, List.append_assoc, List.cons_append, List.nil_append,
      cutLines_append_newline hline, hlines, List.map_cons]

/-- The lines of a text, as who reads its bytes takes them. -/
def linesOf (text : String) : List String := (cutLines (bytes text)).1.filterMap ofBytes?

theorem linesOf_joinLines {lines : List String} (h : ∀ line ∈ lines, '\n' ∉ line.toList) :
    linesOf (joinLines lines) = lines := by
  rw [linesOf, cutLines_bytes_joinLines h, List.filterMap_map]
  have hfun : (ofBytes? ∘ bytes) = some := funext ofBytes?_bytes
  rw [hfun, List.filterMap_some]

/-! ### One line after the other -/

theorem linesWithEnds_newline (rest : List UInt8) :
    linesWithEnds (newline :: rest) = [newline] :: linesWithEnds rest := by
  unfold linesWithEnds
  rw [cutLines]
  simp

theorem linesWithEnds_cons {b : UInt8} (hb : b ≠ newline) (rest : List UInt8) :
    linesWithEnds (b :: rest) =
      match linesWithEnds rest with
      | [] => [[b]]
      | line :: lines => (b :: line) :: lines := by
  unfold linesWithEnds
  rw [cutLines]
  simp only [if_neg hb]
  cases cutLines rest with
  | mk lines behind =>
    cases lines with
    | nil => cases behind <;> rfl
    | cons line lines => rfl

theorem linesWithEnds_of_ne_nil {data : List UInt8} (h : data ≠ []) :
    linesWithEnds data = (takeLine data).1 :: linesWithEnds (takeLine data).2 := by
  induction data with
  | nil => exact absurd rfl h
  | cons b rest ih =>
    by_cases hb : b = newline
    · subst hb
      rw [linesWithEnds_newline, takeLine, if_pos rfl]
    · rw [linesWithEnds_cons hb, takeLine, if_neg hb]
      cases rest with
      | nil => rfl
      | cons c rest => rw [ih (List.cons_ne_nil c rest)]

theorem lineOf_zero (data : List UInt8) : lineOf data 0 = (takeLine data).1 := by
  by_cases h : data = []
  · subst h
    rfl
  · rw [lineOf, linesWithEnds_of_ne_nil h, List.getD_cons_zero]

theorem lineOf_succ (data : List UInt8) (i : Nat) : lineOf data (i + 1) = lineOf (takeLine data).2 i := by
  by_cases h : data = []
  · subst h
    rfl
  · rw [lineOf, linesWithEnds_of_ne_nil h, List.getD_cons_succ]
    rfl

end EnginePipe.Text
