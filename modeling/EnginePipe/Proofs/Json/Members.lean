import EnginePipe.Json.Printer

/-!
# Values and their members

`Value` nests through lists, and the predicates on it come in threes: one for values, one for items and
one for fields.  Here the last two become statements about all members, and induction on values gets
one case for arrays and one for objects.

* `Value.inductionOn`: what passes from the members to the value holds of every value.
* `Value.RealsIn`: all reals in a value satisfy a predicate.
* `Value.printItems_eq_separated`, `Value.printFields_eq_separated`: printed members have commas between
  them.
-/

namespace EnginePipe.Json.Value

/-! ### Induction -/

theorem sizeOf_lt_of_mem_fields {field : String × Value} {fields : List (String × Value)}
    (h : field ∈ fields) : sizeOf field.2 < sizeOf (Value.object fields) := by
  have hl := List.sizeOf_lt_of_mem h
  have hf : sizeOf field = 1 + sizeOf field.1 + sizeOf field.2 := rfl
  simp only [Value.object.sizeOf_spec]
  omega

/-- What holds of a value if it holds of its members holds of every value. -/
theorem inductionOn {P : Value → Prop} (null : P .null) (bool : ∀ b, P (.bool b))
    (integer : ∀ n, P (.integer n)) (real : ∀ x, P (.real x)) (string : ∀ s, P (.string s))
    (array : ∀ items, (∀ item ∈ items, P item) → P (.array items))
    (object : ∀ fields, (∀ field ∈ fields, P field.2) → P (.object fields)) : ∀ v : Value, P v
  | .null => null
  | .bool b => bool b
  | .integer n => integer n
  | .real x => real x
  | .string s => string s
  | .array items =>
    array items fun item _ => inductionOn null bool integer real string array object item
  | .object fields =>
    object fields fun field _ => inductionOn null bool integer real string array object field.2
termination_by v => sizeOf v
decreasing_by
  · have := List.sizeOf_lt_of_mem (by assumption : item ∈ items)
    simp only [Value.array.sizeOf_spec]
    omega
  · exact sizeOf_lt_of_mem_fields (by assumption)

/-! ### Members -/

theorem itemsWellFormed_iff {items : List Value} :
    ItemsWellFormed items ↔ ∀ item ∈ items, item.WellFormed := by
  induction items with
  | nil => simp [ItemsWellFormed]
  | cons item items ih => simp [ItemsWellFormed, ih]

theorem fieldsWellFormed_iff {fields : List (String × Value)} :
    FieldsWellFormed fields ↔ ∀ field ∈ fields, field.2.WellFormed := by
  induction fields with
  | nil => simp [FieldsWellFormed]
  | cons field fields ih => simp [FieldsWellFormed, ih]

theorem itemsIntegral_iff {items : List Value} :
    ItemsIntegral items ↔ ∀ item ∈ items, item.Integral := by
  induction items with
  | nil => simp [ItemsIntegral]
  | cons item items ih => simp [ItemsIntegral, ih]

theorem fieldsIntegral_iff {fields : List (String × Value)} :
    FieldsIntegral fields ↔ ∀ field ∈ fields, field.2.Integral := by
  induction fields with
  | nil => simp [FieldsIntegral]
  | cons field fields ih => simp [FieldsIntegral, ih]

theorem itemsNesting_le_iff {items : List Value} {depth : Nat} :
    itemsNesting items ≤ depth ↔ ∀ item ∈ items, item.nesting ≤ depth := by
  induction items with
  | nil => simp [itemsNesting]
  | cons item items ih => rw [itemsNesting, Nat.max_le, ih, List.forall_mem_cons]

theorem fieldsNesting_le_iff {fields : List (String × Value)} {depth : Nat} :
    fieldsNesting fields ≤ depth ↔ ∀ field ∈ fields, field.2.nesting ≤ depth := by
  induction fields with
  | nil => simp [fieldsNesting]
  | cons field fields ih =>
    rw [fieldsNesting, Nat.max_le, ih, List.forall_mem_cons]

/-! ### Reals in a value -/

/-- Every real in the value satisfies `p`. -/
inductive RealsIn (p : Real.Binary64 → Prop) : Value → Prop
  | null : RealsIn p .null
  | bool (b : Bool) : RealsIn p (.bool b)
  | integer (n : Int) : RealsIn p (.integer n)
  | real {x : Real.Binary64} (h : p x) : RealsIn p (.real x)
  | string (s : String) : RealsIn p (.string s)
  | array {items : List Value} (h : ∀ item ∈ items, RealsIn p item) : RealsIn p (.array items)
  | object {fields : List (String × Value)} (h : ∀ field ∈ fields, RealsIn p field.2) :
    RealsIn p (.object fields)

theorem RealsIn.mono {p q : Real.Binary64 → Prop} (h : ∀ x, p x → q x) {v : Value}
    (hv : v.RealsIn p) : v.RealsIn q := by
  induction hv with
  | null => exact .null
  | bool b => exact .bool b
  | integer n => exact .integer n
  | real hx => exact .real (h _ hx)
  | string s => exact .string s
  | array _ ih => exact .array ih
  | object _ ih => exact .object ih

theorem realsIn_of_integral {p : Real.Binary64 → Prop} {v : Value} (h : v.Integral) : v.RealsIn p := by
  induction v using inductionOn with
  | null => exact .null
  | bool b => exact .bool b
  | integer n => exact .integer n
  | real x => exact absurd h id
  | string s => exact .string s
  | array items ih => exact .array fun item hm => ih item hm (itemsIntegral_iff.1 h item hm)
  | object fields ih => exact .object fun field hm => ih field hm (fieldsIntegral_iff.1 h field hm)

/-! ### Printed members -/

/-- Texts with commas between them. -/
def separated {α : Type} (print : α → List Char) : List α → List Char
  | [] => []
  | [x] => print x
  | x :: y :: xs => print x ++ ',' :: separated print (y :: xs)

/-- A field as it is printed. -/
def printField (field : String × Value) : List Char := printString field.1 ++ ':' :: field.2.print

theorem printItems_eq_separated (items : List Value) : printItems items = separated print items := by
  induction items with
  | nil => rfl
  | cons item items ih =>
    cases items with
    | nil => rfl
    | cons next items => rw [printItems, separated, ih]

theorem printFields_eq_separated (fields : List (String × Value)) :
    printFields fields = separated printField fields := by
  induction fields with
  | nil => rfl
  | cons field fields ih =>
    obtain ⟨key, value⟩ := field
    cases fields with
    | nil => rfl
    | cons next fields =>
      rw [printFields, separated, ih, printField, List.append_assoc, List.cons_append]

end EnginePipe.Json.Value
