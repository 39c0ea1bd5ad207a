import EnginePipe.Json.Printer
import EnginePipe.Json.Reader
import EnginePipe.Text.Escape

/-!
# Requests

What the host sends to an engine: the source text to evaluate in one context, or the order to forget
a context.  On the wire a request is an array: `[id, source]` or `[id]`.

* `Request.escaped`: the request as contexts make it, its source in ASCII form.
* `Request.encode`, `Request.decode?`: its JSON text and back.
* `mem_encode_ge`: an encoded request is one line.
-/

namespace EnginePipe

/-- The key of a context on the wire. -/
abbrev ContextId : Type := UInt64

/-- A message from the host to an engine. -/
inductive Request where
  /-- Evaluate a source text in the context's scope. -/
  | evaluate (context : ContextId) (source : String)
  /-- Forget the context's scope. -/
  | teardown (context : ContextId)
deriving DecidableEq, Repr

namespace Request

/-- The request to evaluate a source text that may hold any character. -/
def escaped (context : ContextId) (source : String) : Request :=
  .evaluate context (Text.escape source)

/-- The context a request is about. -/
def context : Request → ContextId
  | .evaluate id _ => id
  | .teardown id => id

/-- Whether a request ends its context. -/
def isTeardown : Request → Bool
  | .evaluate _ _ => false
  | .teardown _ => true

/-- The source text of a request, if it has one. -/
def source? : Request → Option String
  | .evaluate _ source => some source
  | .teardown _ => none

@[simp] theorem context_escaped (id : ContextId) (source : String) :
    (escaped id source).context = id := rfl

/-! ### Text -/

/-- A request as a value. -/
def toValue : Request → Json.Value
  | .evaluate id source => .array [.integer id.toNat, .string source]
  | .teardown id => .array [.integer id.toNat]

/-- The context that an integer names, if it is in range. -/
def contextOf? (n : Int) : Option ContextId :=
  if 0 ≤ n ∧ n ≤ Json.maxInteger then some (UInt64.ofNat n.toNat) else none

/-- The request that a value is. -/
def ofValue? : Json.Value → Option Request
  | .array [.integer n] => (contextOf? n).map .teardown
  | .array [.integer n, .string source] => (contextOf? n).map (.evaluate · source)
  | _ => none

/-- The text of a request, one line without its end. -/
def encode (r : Request) : String := r.toValue.compact

/-- The request that a text holds. -/
def decode? (text : String) : Option Request := (Json.read? text).bind ofValue?

theorem contextOf?_toNat (id : ContextId) : contextOf? id.toNat = some id := by
  have h : id.toNat < 2 ^ 64 := id.toNat_lt
  have hr : (0 : Int) ≤ id.toNat ∧ (id.toNat : Int) ≤ Json.maxInteger := by
    simp only [Json.maxInteger]; omega
  rw [contextOf?, if_pos hr, Int.toNat_natCast, UInt64.ofNat_toNat]

theorem ofValue?_toValue (r : Request) : ofValue? r.toValue = some r := by
  cases r <;> simp [toValue, ofValue?, contextOf?_toNat]

theorem mem_printNat_ge {n : Nat} {c : Char} (h : c ∈ Json.printNat n) : 0x20 ≤ c.toNat := by
  have hd := Nat.isDigit_of_mem_toDigits (by decide) (by decide) h
  simp only [Char.isDigit, Bool.and_eq_true, decide_eq_true_eq] at hd
  have : '0'.val ≤ c.val := hd.1
  have : '0'.toNat ≤ c.toNat := this
  exact Nat.le_trans (by decide) this

theorem mem_encode_ge {r : Request} {c : Char} (h : c ∈ r.encode.toList) : 0x20 ≤ c.toNat := by
  have hn (id : ContextId) : Json.printInt (id.toNat : Int) = Json.printNat id.toNat := by
    simp [Json.printInt]
  cases r with
  | evaluate id source =>
    simp only [encode, toValue, Json.Value.compact, String.toList_ofList, Json.Value.print,
      Json.Value.printItems, hn, List.mem_cons, List.mem_append, List.not_mem_nil, or_false] at h
    rcases h with rfl | (h | rfl | h) | rfl
    · decide
    · exact mem_printNat_ge h
    · decide
    · exact Json.mem_printString_ge h
    · decide
  | teardown id =>
    simp only [encode, toValue, Json.Value.compact, String.toList_ofList, Json.Value.print,
      Json.Value.printItems, hn, List.mem_cons, List.mem_append, List.not_mem_nil, or_false] at h
    rcases h with rfl | h | rfl
    · decide
    · exact mem_printNat_ge h
    · decide

end Request

end EnginePipe
