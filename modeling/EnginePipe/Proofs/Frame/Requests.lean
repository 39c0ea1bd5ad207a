import EnginePipe.Proofs.Frame.Wires
import EnginePipe.Proofs.Json.Grammar.Texts

/-!
# The format of requests

A request is read from its own text, and from every other text that the grammar of JSON gives the same
value: a context by itself, or a context and a source.  No other text holds a request.

* `Request.decode?_eq_some_iff`: which texts hold a request.
* `Request.codec_onto_format`: **requests and the values of their format are the same**.
-/

namespace EnginePipe.Request

open Json (Value IsText)

theorem contextOf?_eq_some_iff {n : Int} {id : ContextId} : contextOf? n = some id ↔ n = id.toNat := by
  constructor
  · intro h
    unfold contextOf? at h
    split at h
    · next hn =>
      rw [Json.maxInteger] at hn
      cases h
      rw [UInt64.toNat_ofNat']
      omega
    · cases h
  · rintro rfl
    exact contextOf?_toNat id

theorem ofValue?_eq_some_iff {v : Value} {r : Request} : ofValue? v = some r ↔ v = r.toValue := by
  constructor
  · intro h
    unfold ofValue? at h
    split at h
    · obtain ⟨id, hid, rfl⟩ := Option.map_eq_some_iff.1 h
      rw [contextOf?_eq_some_iff.1 hid, toValue]
    · obtain ⟨id, hid, rfl⟩ := Option.map_eq_some_iff.1 h
      rw [contextOf?_eq_some_iff.1 hid, toValue]
    · cases h
  · rintro rfl
    exact ofValue?_toValue r

/-- The items of a request hold no others, so no bound on the nesting is left of its texts. -/
theorem read?_eq_toValue_iff {text : String} {r : Request} :
    Json.read? text = some r.toValue ↔ IsText text r.toValue := by
  constructor
  · exact IsText.of_read
  · intro h
    cases r with
    | evaluate id source => exact h.read_array (by simp [Value.isScalar])
    | teardown id => exact h.read_array (by simp [Value.isScalar])

theorem decode?_eq_some_iff {text : String} {r : Request} :
    decode? text = some r ↔ IsText text r.toValue := by
  rw [← read?_eq_toValue_iff, decode?]
  constructor
  · intro h
    obtain ⟨v, hv, hr⟩ := Option.bind_eq_some_iff.1 h
    rw [hv, ofValue?_eq_some_iff.1 hr]
  · intro h
    rw [h]
    exact ofValue?_toValue r

theorem isSome_decode?_iff {text : String} :
    (decode? text).isSome ↔ ∃ n : Nat, n < 2 ^ 64 ∧ (IsText text (.array [.integer n]) ∨
      ∃ source, IsText text (.array [.integer n, .string source])) := by
  constructor
  · intro h
    obtain ⟨r, hr⟩ := Option.isSome_iff_exists.1 h
    have ht := decode?_eq_some_iff.1 hr
    cases r with
    | evaluate id source => exact ⟨id.toNat, id.toNat_lt, Or.inr ⟨source, ht⟩⟩
    | teardown id => exact ⟨id.toNat, id.toNat_lt, Or.inl ht⟩
  · rintro ⟨n, hn, h⟩
    have hid : (UInt64.ofNat n).toNat = n := UInt64.toNat_ofNat_of_lt' hn
    rw [← hid] at h
    rcases h with h | ⟨source, h⟩
    · exact Option.isSome_of_mem (decode?_eq_some_iff (r := .teardown (UInt64.ofNat n)).2 h)
    · exact Option.isSome_of_mem (decode?_eq_some_iff (r := .evaluate (UInt64.ofNat n) source).2 h)

/-- **A request is read from its own text and from every other text of its value.**  Its own text is one
line, and in ASCII if its source was escaped.  A text holds a request exactly if it is JSON for an array of
a context, or of a context and a source; of the numbers only those without fraction and exponent name a
context. -/
theorem codec_onto_format :
    (∀ r : Request, decode? r.encode = some r ∧ ∀ c ∈ r.encode.toList, 0x20 ≤ c.toNat) ∧
    (∀ id source, (∀ c ∈ (escaped id source).encode.toList, Text.isAscii c) ∧
      decode? (escaped id source).encode = some (.evaluate id (Text.escape source))) ∧
    (∀ text, (decode? text).isSome ↔ ∃ n : Nat, n < 2 ^ 64 ∧ (IsText text (.array [.integer n]) ∨
      ∃ source, IsText text (.array [.integer n, .string source]))) ∧
    (∀ text id, decode? text = some (.teardown id) ↔ IsText text (.array [.integer id.toNat])) ∧
    (∀ text id source, decode? text = some (.evaluate id source) ↔
      IsText text (.array [.integer id.toNat, .string source])) ∧
    ∀ cs n, Json.IsScalar cs (.integer n) ↔ Json.IsIntegerText cs n := by
  refine ⟨?_, ?_, ?_, ?_, ?_, ?_⟩
  · intro r
    exact ⟨r.decode_encode, fun c => mem_encode_ge⟩
  · intro id source
    exact ⟨isPlain_escaped id source, decode_encode _⟩
  · intro text
    exact isSome_decode?_iff
  · intro text id
    exact decode?_eq_some_iff
  · intro text id source
    exact decode?_eq_some_iff
  · intro cs n
    exact Json.isScalar_integer_iff

end EnginePipe.Request
