import EnginePipe.Frame.Response
import EnginePipe.Proofs.Json.Soundness
import EnginePipe.Proofs.Text.Lines

/-!
# Responses are read back

An encoded response is one line that stands between brackets, so trimming takes nothing of it but the
blanks around it, its line end among them.  What is read from the line is the response, its value as
reading gives it; a value without reals is read as it was.

* `Response.decode_padded`: **the text of a sound response holds it**, with blanks around it or without.
* `Reply.ofLine_padded_ok`, `Reply.ofLine_padded_err`: the reply in it.
* `Response.encode_lossless`: **nothing is lost** of a status, a value without reals or a message.
-/

namespace EnginePipe

open Json (Value)

namespace Text

theorem isBlank_of_mem_empty : ∀ c ∈ "".toList, isBlank c := List.all_eq_true.1 (by decide)

theorem isBlank_of_mem_newline : ∀ c ∈ "\n".toList, isBlank c := List.all_eq_true.1 (by decide)

end Text

namespace Response

/-- A response with a status and a value that fits beside it. -/
structure Sound (r : Response) : Prop where
  status : r.status.isSome
  value : r.value.Sound (Json.maxNesting - 1)

theorem sound_ok {v : Value} (h : v.Sound (Json.maxNesting - 1)) : (ok v).Sound := ⟨rfl, h⟩

theorem sound_err (message : String) : (err message).Sound := ⟨rfl, .string message⟩

variable {r : Response} (h : r.Sound)

include h

theorem Sound.toValue : ∃ status, r.status = some status ∧ r.toValue = .array [.string status, r.value] ∧
    r.toValue.Sound Json.maxNesting := by
  obtain ⟨status, hs⟩ := Option.isSome_iff_exists.1 h.status
  have hv : r.toValue = .array [.string status, r.value] := by rw [Response.toValue, hs]
  refine ⟨status, hs, hv, ?_⟩
  rw [hv]
  refine .array fun item hi => ?_
  rcases List.mem_cons.1 hi with rfl | hi
  · exact .string status
  · rw [List.mem_singleton.1 hi]
    exact h.value

omit h in
theorem mem_encode_ge (r : Response) {c : Char} (hc : c ∈ r.encode.toList) : 0x20 ≤ c.toNat := by
  rw [encode, Value.compact, String.toList_ofList] at hc
  exact Value.mem_print_ge _ _ hc

omit h in
theorem not_newline_mem_encode (r : Response) : '\n' ∉ r.encode.toList := by
  intro hm
  exact absurd (r.mem_encode_ge hm) (by decide)

section

variable {before after : String} (hbefore : ∀ c ∈ before.toList, Text.isBlank c)
  (hafter : ∀ c ∈ after.toList, Text.isBlank c)

include hbefore hafter

/-- **The text of a sound response holds it**, whatever blanks stand around it. -/
theorem decode_padded : decode (before ++ r.encode ++ after) = .ok (some ⟨r.status, r.value.reread⟩) := by
  obtain ⟨status, hs, hv, hsound⟩ := h.toValue
  have hread := Json.read_compact hsound
  rw [hv, Value.reread, Value.rereadItems_eq_map] at hread
  have htext : r.encode.toList = '[' :: (Value.printItems [.string status, r.value] ++ [']']) := by
    rw [encode, Value.compact, String.toList_ofList, hv, Value.print]
  have htrim : Text.trim (before ++ r.encode ++ after).toList = r.encode.toList := by
    rw [String.toList_append, String.toList_append, htext]
    exact Text.trim_around hbefore hafter (by decide) (by decide) _
  have hne : r.encode.toList.isEmpty = false := by rw [htext]; rfl
  have harray : Json.readArray? r.encode = some [.string status, r.value.reread] := by
    rw [Json.readArray?, encode, hv, hread]
    rfl
  rw [decode]
  simp only [htrim, hne, String.ofList_toList, harray, Bool.false_eq_true, if_false]
  rw [hs]
  rfl

end

end Response

namespace Reply

section

variable {before after : String} (hbefore : ∀ c ∈ before.toList, Text.isBlank c)
  (hafter : ∀ c ∈ after.toList, Text.isBlank c)

include hbefore hafter

theorem ofLine_padded_ok {v : Value} (h : v.Sound (Json.maxNesting - 1)) (marker : String) :
    ofLine (some (before ++ (Response.ok v).encode ++ after)) marker = .ok (.value v.reread) := by
  rw [ofLine, Response.decode_padded (Response.sound_ok h) hbefore hafter]
  rfl

theorem ofLine_padded_err (message marker : String) :
    ofLine (some (before ++ (Response.err message).encode ++ after)) marker =
      .ok (if Response.marks marker message then .syntaxError message else .programError message) := by
  rw [ofLine, Response.decode_padded (Response.sound_err message) hbefore hafter]
  exact congrArg Except.ok (Response.classify_err message marker)

end

theorem ofLine_ok {v : Value} (h : v.Sound (Json.maxNesting - 1)) (marker : String) :
    ofLine (some ((Response.ok v).encode ++ "\n")) marker = .ok (.value v.reread) := by
  have hline := ofLine_padded_ok Text.isBlank_of_mem_empty Text.isBlank_of_mem_newline h marker
  rwa [String.empty_append] at hline

theorem ofLine_err (message marker : String) :
    ofLine (some ((Response.err message).encode ++ "\n")) marker =
      .ok (if Response.marks marker message then .syntaxError message else .programError message) := by
  have hline := ofLine_padded_err Text.isBlank_of_mem_empty Text.isBlank_of_mem_newline message marker
  rwa [String.empty_append] at hline

end Reply

namespace Response

theorem marks_iff {marker message : String} :
    marks marker message ↔ marker ≠ "" ∧ marker.toList <:+: message.toList := by
  rw [marks, Bool.and_eq_true, Text.occursIn_iff, Bool.not_eq_true', ← Bool.not_eq_true,
    String.isEmpty_iff]

/-- **Nothing is lost of a status, a value without reals or a message.**  Blanks may stand around the text.
The value fits if it nests one less deep than the reader goes, as the array of the response takes one. -/
theorem encode_lossless {v : Value} (hw : v.WellFormed) (hi : v.Integral) (hn : v.nesting ≤ 126)
    {before after : String} (hbefore : ∀ c ∈ before.toList, Text.isBlank c)
    (hafter : ∀ c ∈ after.toList, Text.isBlank c) (status marker message : String) :
    '\n' ∉ (Response.mk (some status) v).encode.toList ∧
    '\r' ∉ (Response.mk (some status) v).encode.toList ∧
    decode (before ++ (Response.mk (some status) v).encode ++ after) = .ok (some ⟨some status, v⟩) ∧
    Reply.ofLine (some (before ++ (ok v).encode ++ after)) marker = .ok (.value v) ∧
    (marker ≠ "" ∧ marker.toList <:+: message.toList →
      Reply.ofLine (some (before ++ (err message).encode ++ after)) marker = .ok (.syntaxError message)) ∧
    (¬ (marker ≠ "" ∧ marker.toList <:+: message.toList) →
      Reply.ofLine (some (before ++ (err message).encode ++ after)) marker = .ok (.programError message)) := by
  have hsound : v.Sound (Json.maxNesting - 1) := .of_integral hw hi hn
  have hreread := Value.reread_of_integral hi hw
  have herr := Reply.ofLine_padded_err hbefore hafter message marker
  refine ⟨not_newline_mem_encode _, ?_, ?_, ?_, ?_, ?_⟩
  · intro hm
    exact absurd (mem_encode_ge _ hm) (by decide)
  · have hdecode := decode_padded (r := ⟨some status, v⟩) ⟨rfl, hsound⟩ hbefore hafter
    rwa [hreread] at hdecode
  · have hok := Reply.ofLine_padded_ok hbefore hafter hsound marker
    rwa [hreread] at hok
  · intro hmarks
    rwa [if_pos (marks_iff.2 hmarks)] at herr
  · intro hmarks
    rwa [if_neg fun h => hmarks (marks_iff.1 h)] at herr

/-- The bounds of the integers, a line end in a string, and two kinds of blanks around the text. -/
theorem encode_lossless_nested :
    let v : Value := .object [("bounds", .array [.integer Json.minInteger, .integer Json.maxInteger]),
      ("text", .string "é\r\n")]
    decode ("\u00a0" ++ (Response.mk (some "late") v).encode ++ "\u2003\n") = .ok (some ⟨some "late", v⟩) ∧
    Reply.ofLine (some ("\u00a0" ++ (err "line 1: Syntax").encode ++ "\u2003\n")) "Syntax" =
      .ok (.syntaxError "line 1: Syntax") := by
  intro v
  have hw : v.WellFormed := by
    simp only [v, Value.WellFormed, Value.FieldsWellFormed, Value.ItemsWellFormed, Json.minInteger, Json.maxInteger]
    decide
  have hi : v.Integral := by simp [v, Value.Integral, Value.FieldsIntegral, Value.ItemsIntegral]
  have hn : v.nesting ≤ 126 := by simp [v, Value.nesting, Value.fieldsNesting, Value.itemsNesting]
  have hbefore : ∀ c ∈ "\u00a0".toList, Text.isBlank c := List.all_eq_true.1 (by decide)
  have hafter : ∀ c ∈ "\u2003\n".toList, Text.isBlank c := List.all_eq_true.1 (by decide)
  have hspec := encode_lossless hw hi hn hbefore hafter "late" "Syntax" "line 1: Syntax"
  refine ⟨hspec.2.2.1, hspec.2.2.2.2.1 ⟨by decide, ?_⟩⟩
  exact ⟨"line 1: ".toList, [], by decide⟩

end Response

end EnginePipe
