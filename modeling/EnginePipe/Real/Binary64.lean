/-!
# Finite binary64 numbers

All finite binary64 numbers are whole multiples of `2 ^ -1074`, the **unit**.  A magnitude is kept as
`significand * 2 ^ shift` units, so that every comparison and rounding is exact arithmetic on
natural numbers.

* `Magnitude.nearest num den`: the magnitude nearest to `num / den`, a tie going to the even
  significand; nothing beyond the finite range.
* `Magnitude.mul`, `Magnitude.div`: the exact product or quotient, rounded once.
* `Magnitude.nearest_zero`: nothing rounds to a number but zero.
-/

namespace EnginePipe.Real

/-- `significand * 2 ^ shift` units of `2 ^ -1074`. -/
structure Magnitude where
  significand : Nat
  shift : Nat
deriving DecidableEq, Repr

/-- A finite binary64 number; zero has both signs. -/
structure Binary64 where
  negative : Bool
  magnitude : Magnitude
deriving DecidableEq, Repr

/-- The quotient rounded to the nearest whole number, a tie going to the even one. -/
def roundHalfEven (num den : Nat) : Nat :=
  let q := num / den
  let r := num % den
  if den < 2 * r ∨ den = 2 * r ∧ q % 2 = 1 then q + 1 else q

namespace Magnitude

/-- How many units are one. -/
@[irreducible] def unitsPerOne : Nat := Nat.pow 2 1074

/-- The least significand of a number that is not subnormal; a significand stays below its double. -/
def leastNormal : Nat := 4503599627370496

/-- The largest shift of a finite number. -/
def maxShift : Nat := 2045

/-- The magnitude of both zeros. -/
def zero : Magnitude := ⟨0, 0⟩

/-- The value in units. -/
def units (m : Magnitude) : Nat := m.significand * Nat.pow 2 m.shift

/-- The magnitude nearest to `num / den`; nothing when that is not finite. -/
def nearest (num den : Nat) : Option Magnitude :=
  let scaled := num * unitsPerOne
  let shift := (scaled / den).log2 - 52
  let significand := roundHalfEven scaled (den * Nat.pow 2 shift)
  let rounded : Magnitude :=
    if significand = 2 * leastNormal then ⟨leastNormal, shift + 1⟩ else ⟨significand, shift⟩
  if rounded.shift ≤ maxShift then some rounded else none

theorem nearest_zero (den : Nat) : nearest 0 den = some zero := by
  simp [nearest, roundHalfEven, zero, leastNormal, Nat.log2_zero]

/-- The product, rounded once. -/
def mul (a b : Magnitude) : Option Magnitude :=
  nearest (a.units * b.units) (unitsPerOne * unitsPerOne)

/-- The quotient, rounded once; nothing for a divisor of zero. -/
def div (a b : Magnitude) : Option Magnitude :=
  if b.units = 0 then none else nearest a.units b.units

end Magnitude

end EnginePipe.Real
