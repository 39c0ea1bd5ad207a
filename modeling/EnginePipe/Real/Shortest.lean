import EnginePipe.Real.Binary64

/-!
# Shortest decimal digits

The decimal that stands for a binary64 number has as few digits as let it **read back**: it lies in
the interval of reals that round to the number.  Of the decimals with that many digits the nearest
is taken, and the one with an even last digit when two are equally near.

`shortest` tries the grids of one digit, two digits and so on.  If any point of a grid lies in the
interval, then so does one of the two grid points next to the number, so only those are tested.
Seventeen digits always suffice.
-/

namespace EnginePipe.Real

/-- The decimal `digits * 10 ^ exponent`, with no trailing zero unless it is zero. -/
structure Decimal where
  digits : Nat
  exponent : Int
deriving DecidableEq, Repr

namespace Magnitude

/-- The interval of values that round to a magnitude, in quarters of a unit: half a step to either
side, but a quarter below a power of two, where the steps become half as wide. -/
def readsBack (m : Magnitude) (num den : Nat) : Bool :=
  let step := Nat.pow 2 m.shift
  let low :=
    if m.significand = leastNormal ∧ m.shift ≠ 0 then 4 * m.units - step else 4 * m.units - 2 * step
  let high := 4 * m.units + 2 * step
  let scaled := 4 * num * unitsPerOne
  if m.significand % 2 = 0 then low * den ≤ scaled && scaled ≤ high * den
  else low * den < scaled && scaled < high * den

/-- Numerator and denominator of `n * 10 ^ e`. -/
def tenRatio (n : Nat) (e : Int) : Nat × Nat :=
  if 0 ≤ e then (n * Nat.pow 10 e.toNat, 1) else (n, Nat.pow 10 (-e).toNat)

/-- The least `k` with `m < 10 ^ k`, searched downwards from `start` for `fuel` steps. -/
def decimalMagnitude (m : Magnitude) : Nat → Int → Int
  | 0, k => k
  | fuel + 1, k =>
    let (num, den) := tenRatio 1 (k - 1)
    if m.units * den < num * unitsPerOne then decimalMagnitude m fuel (k - 1) else k

/-- The grid point next below and above a magnitude, as multiples of `10 ^ e`, with the sign of
`below + above - 2 * m`: which of the two is nearer. -/
def neighbours (m : Magnitude) (e : Int) : Nat × Nat × Ordering :=
  let (num, den) := tenRatio 1 e
  let below := m.units * den / (num * unitsPerOne)
  (below, below + 1, compare (2 * m.units * den) ((2 * below + 1) * (num * unitsPerOne)))

/-- The first of two multiples of `10 ^ e` that fits. -/
def firstFitting? (fits : Nat → Bool) (e : Int) (candidates : Nat × Nat) : Option Decimal :=
  if fits candidates.1 then some ⟨candidates.1, e⟩
  else if fits candidates.2 then some ⟨candidates.2, e⟩ else none

theorem firstFitting?_spec {fits : Nat → Bool} {e : Int} {candidates : Nat × Nat} {d : Decimal}
    (h : firstFitting? fits e candidates = some d) : fits d.digits ∧ d.exponent = e := by
  unfold firstFitting? at h
  split at h
  · next hfits => cases h; exact ⟨hfits, rfl⟩
  split at h
  · next hfits => cases h; exact ⟨hfits, rfl⟩
  · cases h

/-- Whether `n * 10 ^ e` reads back as a magnitude. -/
def decimalReadsBack (m : Magnitude) (e : Int) (n : Nat) : Bool :=
  m.readsBack (tenRatio n e).1 (tenRatio n e).2

/-- The grid points next to a magnitude, the nearer one first, of equally near ones the even one. -/
def nearerFirst : Nat × Nat × Ordering → Nat × Nat
  | (below, above, .lt) => (below, above)
  | (below, above, .gt) => (above, below)
  | (below, above, .eq) => if below % 2 = 0 then (below, above) else (above, below)

/-- The decimal of `count` digits that stands for a magnitude below `10 ^ k`, if one reads back. -/
def ofDigitCount? (m : Magnitude) (k : Int) (count : Nat) : Option Decimal :=
  firstFitting? (m.decimalReadsBack (k - count)) (k - count) (nearerFirst (m.neighbours (k - count)))

/-- Trailing zeros moved into the exponent, at most `fuel` of them. -/
def stripZeros : Nat → Decimal → Decimal
  | 0, d => d
  | fuel + 1, d =>
    if d.digits ≠ 0 ∧ d.digits % 10 = 0 then stripZeros fuel ⟨d.digits / 10, d.exponent + 1⟩ else d

/-- The shortest decimal that stands for a magnitude. -/
def shortest (m : Magnitude) : Decimal :=
  if m.significand = 0 then ⟨0, 0⟩
  else
    let k := m.decimalMagnitude 700 310
    match (List.range 17).findSome? (fun i => m.ofDigitCount? k (i + 1)) with
    | some d => stripZeros 20 d
    | none => ⟨0, 0⟩

end Magnitude

end EnginePipe.Real
