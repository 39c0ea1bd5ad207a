import EnginePipe.Text.Affix
import Mathlib.Data.List.DropRight

/-!
# Parts of a text

What trimming, cutting and taking off beginnings leave of a text stands in it, in one piece.

* `exists_trim`: **only blanks are trimmed away**.
* `infix_trim`, `infix_of_between?`, `infix_of_mem_splitWhere`: what is left is a part of the text.
* `trim_append_cons`: trimming on both sides of a character that stays.
-/

namespace EnginePipe.Text

/-! ### Trimming -/

theorem dropWhileEnd_append_takeWhile {α : Type} (p : α → Bool) (xs : List α) :
    dropWhileEnd p xs ++ (xs.reverse.takeWhile p).reverse = xs := by
  rw [dropWhileEnd, ← List.reverse_append, List.takeWhile_append_dropWhile, List.reverse_reverse]

/-- **Only blanks are trimmed away.** -/
theorem exists_trim (cs : List Char) : ∃ before after, (∀ c ∈ before, isBlank c) ∧
    (∀ c ∈ after, isBlank c) ∧ cs = before ++ (trim cs ++ after) := by
  refine ⟨cs.takeWhile isBlank, ((cs.dropWhile isBlank).reverse.takeWhile isBlank).reverse, ?_, ?_, ?_⟩
  · intro c hc
    exact List.mem_takeWhile_imp hc
  · intro c hc
    exact List.mem_takeWhile_imp (List.mem_reverse.1 hc)
  · rw [trim, dropWhileEnd_append_takeWhile, List.takeWhile_append_dropWhile]

theorem trim_of_not_blank {cs : List Char} (h : ∀ c ∈ cs, ¬ isBlank c) : trim cs = cs := by
  have key {xs : List Char} (hxs : ∀ c ∈ xs, ¬ isBlank c) : xs.dropWhile isBlank = xs :=
    List.dropWhile_eq_self_iff.2 fun hl => hxs _ (List.getElem_mem hl)
  rw [trim, dropWhileEnd, key h, key fun c hc => h c (List.mem_reverse.1 hc), List.reverse_reverse]

theorem trim_append_of_blank {after : List Char} (hafter : ∀ c ∈ after, isBlank c) (cs : List Char) :
    trim (cs ++ after) = trim cs := by
  rw [trim, trim, List.dropWhile_append]
  split
  · next he => rw [List.dropWhile_eq_nil_iff.2 hafter, List.isEmpty_iff.1 he]
  · exact dropWhileEnd_append_of_pos hafter

theorem trim_dropWhile (cs : List Char) : trim (cs.dropWhile isBlank) = trim cs := by
  rw [trim, trim, List.dropWhile_idempotent]

theorem dropWhileEnd_append_cons_of_neg {α : Type} {p : α → Bool} {x : α} (h : ¬ p x) (xs ys : List α) :
    dropWhileEnd p (xs ++ x :: ys) = xs ++ x :: dropWhileEnd p ys := by
  rw [dropWhileEnd, List.reverse_append, List.reverse_cons, List.append_assoc, List.dropWhile_append]
  split
  · next he => simp [dropWhileEnd, List.isEmpty_iff.1 he, h]
  · simp [dropWhileEnd]

theorem trim_append_cons {c : Char} (h : ¬ isBlank c) (cs ds : List Char) :
    trim (cs ++ c :: ds) = cs.dropWhile isBlank ++ c :: dropWhileEnd isBlank ds := by
  have hdrop : (cs ++ c :: ds).dropWhile isBlank = cs.dropWhile isBlank ++ c :: ds := by
    rw [List.dropWhile_append]
    split
    · next he => rw [List.isEmpty_iff.1 he, List.dropWhile_cons_of_neg h, List.nil_append]
    · rfl
  rw [trim, hdrop, dropWhileEnd_append_cons_of_neg h]

/-! ### What is left -/

theorem infix_trim (cs : List Char) : trim cs <:+: cs := by
  obtain ⟨before, after, -, -, hcs⟩ := exists_trim cs
  exact ⟨before, after, by rw [List.append_assoc, ← hcs]⟩

theorem infix_of_stripPrefix? {start cs rest : List Char} (h : stripPrefix? start cs = some rest) :
    rest <:+: cs := by
  rw [stripPrefix?_eq_some_iff.1 h]
  exact (List.suffix_append start rest).isInfix

theorem infix_of_between? {start ending cs rest : List Char} (h : between? start ending cs = some rest) :
    rest <:+: cs := by
  rw [between?_eq_some_iff.1 h]
  exact ⟨start, ending, List.append_assoc ..⟩

/-- The first piece is a beginning of the text, and all others are parts of it. -/
theorem exists_pieces (p : Char → Bool) (cs : List Char) :
    ∃ piece pieces, splitWhere p cs = piece :: pieces ∧ piece <+: cs ∧ ∀ q ∈ pieces, q <:+: cs := by
  induction cs with
  | nil => exact ⟨[], [], rfl, List.prefix_rfl, fun q hq => absurd hq List.not_mem_nil⟩
  | cons c cs ih =>
    obtain ⟨piece, pieces, hsplit, hfirst, hrest⟩ := ih
    have htail : cs <:+: c :: cs := (List.suffix_cons c cs).isInfix
    have hbehind : ∀ q ∈ pieces, q <:+: c :: cs := fun q hq => (hrest q hq).trans htail
    rw [splitWhere, hsplit]
    dsimp only
    by_cases hc : p c
    · rw [if_pos hc]
      refine ⟨[], piece :: pieces, rfl, List.nil_prefix, ?_⟩
      intro q hq
      rcases List.mem_cons.1 hq with rfl | hq
      · exact hfirst.isInfix.trans htail
      · exact hbehind q hq
    · rw [if_neg hc]
      exact ⟨c :: piece, pieces, rfl, (List.prefix_cons_inj c).2 hfirst, hbehind⟩

theorem infix_of_mem_splitWhere {p : Char → Bool} {cs piece : List Char} (h : piece ∈ splitWhere p cs) :
    piece <:+: cs := by
  obtain ⟨first, pieces, hsplit, hfirst, hrest⟩ := exists_pieces p cs
  rw [hsplit] at h
  rcases List.mem_cons.1 h with rfl | h
  · exact hfirst.isInfix
  · exact hrest piece h

end EnginePipe.Text
