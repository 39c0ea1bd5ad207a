import EnginePipe.Real.Binary64

/-!
# JSON values

A value as engines and callers exchange it.  Integers and binary64 reals are kept apart; the fields
of an object stand in ascending order of their keys, each key once.

* `insertField`: the one way fields come into an object; the last value under a key stays.
* `lookup_insertField`, `lookup_insertField_of_ne`: the key has its new value, and all others keep theirs.
* `Value.WellFormed`: integers in range and fields in order, as every value that was read is.
* `Value.nesting`: how many arrays and objects enclose the innermost item.
-/

namespace EnginePipe.Json

/-- A JSON value. -/
inductive Value where
  | null
  | bool (b : Bool)
  | integer (n : Int)
  | real (x : Real.Binary64)
  | string (s : String)
  | array (items : List Value)
  | object (fields : List (String × Value))
deriving Repr, Inhabited, BEq

/-- Puts a field into a list with ascending keys, over any field with its key. -/
def insertField {α : Type} (key : String) (value : α) : List (String × α) → List (String × α)
  | [] => [(key, value)]
  | (k, v) :: fields =>
    if key < k then (key, value) :: (k, v) :: fields
    else if key = k then (key, value) :: fields
    else (k, v) :: insertField key value fields

/-- The fields of an object in the order of their keys; the last of several with one key counts. -/
def fieldsOf {α : Type} (written : List (String × α)) : List (String × α) :=
  written.foldl (fun fields (key, value) => insertField key value fields) []

theorem lookup_insertField {α : Type} (key : String) (value : α) (fields : List (String × α)) :
    (insertField key value fields).lookup key = some value := by
  induction fields with
  | nil => simp [insertField]
  | cons field fields ih =>
    obtain ⟨k, v⟩ := field
    simp only [insertField]
    split
    · simp
    · split
      · simp
      · next h =>
        rw [List.lookup_cons, beq_eq_false_iff_ne.2 h]
        exact ih

theorem lookup_insertField_of_ne {α : Type} {key other : String} (h : other ≠ key) (value : α)
    (fields : List (String × α)) : (insertField key value fields).lookup other = fields.lookup other := by
  have hkey : (other == key) = false := beq_eq_false_iff_ne.2 h
  induction fields with
  | nil => rw [insertField, List.lookup_cons, hkey]
  | cons field fields ih =>
    obtain ⟨k, v⟩ := field
    rw [insertField]
    split
    · rw [List.lookup_cons, hkey]
    · split
      · next hk => rw [List.lookup_cons, List.lookup_cons, ← hk, hkey]
      · rw [List.lookup_cons, List.lookup_cons, ih]

/-! ### Range and order -/

/-- The least integer that stays an integer; what lies below is read as a real. -/
def minInteger : Int := -9223372036854775808

/-- The greatest integer that stays an integer; what lies above is read as a real. -/
def maxInteger : Int := 18446744073709551615

namespace Value

mutual

/-- All integers are in range and all fields in ascending order of their keys. -/
def WellFormed : Value → Prop
  | .integer n => minInteger ≤ n ∧ n ≤ maxInteger
  | .array items => ItemsWellFormed items
  | .object fields => fields.Pairwise (fun f g => f.1 < g.1) ∧ FieldsWellFormed fields
  | _ => True

/-- All items of an array are well formed. -/
def ItemsWellFormed : List Value → Prop
  | [] => True
  | item :: items => item.WellFormed ∧ ItemsWellFormed items

/-- All values of an object's fields are well formed. -/
def FieldsWellFormed : List (String × Value) → Prop
  | [] => True
  | (_, value) :: fields => value.WellFormed ∧ FieldsWellFormed fields

end

mutual

/-- No number in the value is a real. -/
def Integral : Value → Prop
  | .real _ => False
  | .array items => ItemsIntegral items
  | .object fields => FieldsIntegral fields
  | _ => True

/-- No item of an array holds a real. -/
def ItemsIntegral : List Value → Prop
  | [] => True
  | item :: items => item.Integral ∧ ItemsIntegral items

/-- No field of an object holds a real. -/
def FieldsIntegral : List (String × Value) → Prop
  | [] => True
  | (_, value) :: fields => value.Integral ∧ FieldsIntegral fields

end

/-! ### Nesting -/

mutual

/-- How many arrays and objects enclose the innermost item, itself included. -/
def nesting : Value → Nat
  | .array items => itemsNesting items + 1
  | .object fields => fieldsNesting fields + 1
  | _ => 0

/-- The deepest nesting among the items of an array. -/
def itemsNesting : List Value → Nat
  | [] => 0
  | item :: items => max item.nesting (itemsNesting items)

/-- The deepest nesting among the fields of an object. -/
def fieldsNesting : List (String × Value) → Nat
  | [] => 0
  | (_, value) :: fields => max value.nesting (fieldsNesting fields)

end

end Value

end EnginePipe.Json
