import EnginePipe.Real.Binary64
import Mathlib.Tactic.Ring

/-!
# How far rounding goes

`Magnitude.nearest num den` is a significand, rounded from the quotient, and a shift.  The bounds here
compare its value in units with the exact quotient, multiplied out so that nothing is divided.

* `Magnitude.nearest_spec`: what is nearest is finite, and its value is the rounded quotient.
* `Magnitude.nearest_isSome`: below half a step above the greatest number there is a nearest one.
* `Magnitude.two_mul_units_le`, `Magnitude.units_le_of_normal`, `Magnitude.le_two_mul_units_of_normal`:
  how far the value may be from the quotient.
-/

namespace EnginePipe.Real

/-! ### Rounding quotients -/

theorem roundHalfEven_le {num den : Nat} : 2 * (roundHalfEven num den * den) ≤ 2 * num + den := by
  have hdiv := Nat.div_add_mod num den
  unfold roundHalfEven
  dsimp only
  split
  · next h =>
    have : (num / den + 1) * den = den * (num / den) + den := by ring
    rcases h with h | h <;> omega
  · have : num / den * den = den * (num / den) := Nat.mul_comm _ _
    omega

theorem le_roundHalfEven {num den : Nat} (hd : 0 < den) :
    2 * num ≤ 2 * (roundHalfEven num den * den) + den := by
  have hdiv := Nat.div_add_mod num den
  have hmod := Nat.mod_lt num hd
  unfold roundHalfEven
  dsimp only
  split
  · have : (num / den + 1) * den = den * (num / den) + den := by ring
    omega
  · next h =>
    have : num / den * den = den * (num / den) := Nat.mul_comm _ _
    omega

namespace Magnitude

/-- A magnitude of a finite number. -/
structure Finite (m : Magnitude) : Prop where
  significand_lt : m.significand < 2 * leastNormal
  shift_le : m.shift ≤ maxShift

theorem finite_zero : zero.Finite := ⟨by decide, by decide⟩

/-- How far the significand of a quotient is shifted. -/
def quotientShift (num den : Nat) : Nat := (num * unitsPerOne / den).log2 - 52

/-- The significand of a quotient, before it is normalised. -/
def quotientSignificand (num den : Nat) : Nat :=
  roundHalfEven (num * unitsPerOne) (den * Nat.pow 2 (quotientShift num den))

theorem quotient_lt (num den : Nat) :
    num * unitsPerOne / den < 2 * leastNormal * 2 ^ quotientShift num den := by
  have h := Nat.lt_log2_self (n := num * unitsPerOne / den)
  refine Nat.lt_of_lt_of_le h ?_
  rw [show 2 * leastNormal = 2 ^ 53 from rfl, ← Nat.pow_add]
  refine Nat.pow_le_pow_right (by decide) ?_
  unfold quotientShift
  omega

theorem quotientSignificand_le (num den : Nat) : quotientSignificand num den ≤ 2 * leastNormal := by
  have hlt := quotient_lt num den
  have hpos : 0 < 2 ^ quotientShift num den := Nat.pow_pos (by decide)
  have hq : num * unitsPerOne / (den * 2 ^ quotientShift num den) < 2 * leastNormal := by
    rw [← Nat.div_div_eq_div_mul, Nat.div_lt_iff_lt_mul hpos]
    exact hlt
  unfold quotientSignificand roundHalfEven
  simp only [Nat.pow_eq]
  split <;> omega

theorem nearest_eq (num den : Nat) : nearest num den =
    if quotientSignificand num den = 2 * leastNormal then
      if quotientShift num den + 1 ≤ maxShift then some ⟨leastNormal, quotientShift num den + 1⟩ else none
    else if quotientShift num den ≤ maxShift then
      some ⟨quotientSignificand num den, quotientShift num den⟩ else none := by
  unfold nearest quotientSignificand quotientShift
  dsimp only
  split <;> rfl

theorem units_mk (significand shift : Nat) : units ⟨significand, shift⟩ = significand * 2 ^ shift := by
  rw [units, Nat.pow_eq]

theorem units_carried (shift : Nat) : units ⟨leastNormal, shift + 1⟩ = 2 * leastNormal * 2 ^ shift := by
  rw [units_mk, Nat.pow_succ]
  ring

/-- What is nearest is finite, and its value is the rounded quotient. -/
theorem nearest_spec {num den : Nat} {m : Magnitude} (h : nearest num den = some m) :
    m.Finite ∧ m.units = quotientSignificand num den * 2 ^ quotientShift num den := by
  have hle := quotientSignificand_le num den
  rw [nearest_eq] at h
  generalize quotientSignificand num den = s at h hle ⊢
  generalize quotientShift num den = k at h ⊢
  split at h
  · next hs =>
    split at h
    · next hk =>
      cases h
      have hlt : leastNormal < 2 * leastNormal := by decide
      exact ⟨⟨hlt, hk⟩, by rw [hs, units_carried]⟩
    · cases h
  · next hs =>
    split at h
    · next hk =>
      cases h
      exact ⟨⟨Nat.lt_of_le_of_ne hle hs, hk⟩, units_mk s k⟩
    · cases h

theorem shift_step_le {num den : Nat} :
    den * 2 ^ quotientShift num den ≤ den + num * unitsPerOne := by
  by_cases hs : (num * unitsPerOne / den).log2 ≤ 52
  · have : quotientShift num den = 0 := by unfold quotientShift; omega
    rw [this]
    omega
  · have hn : num * unitsPerOne / den ≠ 0 := by
      intro h0
      rw [h0] at hs
      simp at hs
    have h1 := Nat.log2_self_le hn
    have h2 : 2 ^ quotientShift num den ≤ 2 ^ (num * unitsPerOne / den).log2 :=
      Nat.pow_le_pow_right (by decide) (by unfold quotientShift; omega)
    have h3 : den * (num * unitsPerOne / den) ≤ num * unitsPerOne := Nat.mul_div_le _ _
    have h4 := Nat.mul_le_mul_left den (Nat.le_trans h2 h1)
    omega

/-- The step between neighbours is small against a normal quotient. -/
theorem shift_step_le_of_normal {num den : Nat} (hd : 0 < den)
    (hn : den * leastNormal ≤ num * unitsPerOne) :
    den * 2 ^ quotientShift num den * leastNormal ≤ num * unitsPerOne := by
  have hq : leastNormal ≤ num * unitsPerOne / den := by
    rw [Nat.le_div_iff_mul_le hd, Nat.mul_comm]
    exact hn
  have hne : num * unitsPerOne / den ≠ 0 := by
    intro h0
    rw [h0] at hq
    exact absurd hq (by decide)
  have hlog : 52 ≤ (num * unitsPerOne / den).log2 := by
    rw [Nat.le_log2 hne]
    exact hq
  have h1 := Nat.log2_self_le hne
  have h2 : 2 ^ quotientShift num den * leastNormal = 2 ^ (num * unitsPerOne / den).log2 := by
    rw [show leastNormal = 2 ^ 52 from rfl, ← Nat.pow_add]
    unfold quotientShift
    congr 1
    omega
  have h3 : den * (num * unitsPerOne / den) ≤ num * unitsPerOne := Nat.mul_div_le _ _
  have h4 := Nat.mul_le_mul_left den h1
  rw [Nat.mul_assoc, h2]
  omega

/-- Twice the number of units below which everything rounds to a finite number. -/
@[irreducible] def twiceLimit : Nat := 18014398509481983 * 2 ^ maxShift

theorem twiceLimit_eq : twiceLimit = 18014398509481983 * 2 ^ maxShift := by
  unfold twiceLimit
  exact Eq.refl _

theorem quotientShift_le {num den : Nat} (h : 2 * (num * unitsPerOne) < den * twiceLimit) :
    quotientShift num den ≤ maxShift := by
  have hlt : num * unitsPerOne / den < 2 ^ (53 + maxShift) := by
    refine Nat.div_lt_of_lt_mul ?_
    rw [twiceLimit_eq] at h
    rw [Nat.pow_add]
    have hle : den * (18014398509481983 * 2 ^ maxShift) ≤ 2 * (den * (2 ^ 53 * 2 ^ maxShift)) := by
      rw [Nat.mul_left_comm 2, ← Nat.mul_assoc 2]
      exact Nat.mul_le_mul_left den (Nat.mul_le_mul_right _ (by decide))
    omega
  have hlog : (num * unitsPerOne / den).log2 < 53 + maxShift := by
    by_cases h0 : num * unitsPerOne / den = 0
    · rw [h0, Nat.log2_zero]
      omega
    · exact (Nat.log2_lt h0).2 hlt
  rw [quotientShift]
  omega

theorem nearest_isSome {num den : Nat} (hd : 0 < den) (h : 2 * (num * unitsPerOne) < den * twiceLimit) :
    (nearest num den).isSome := by
  have hshift := quotientShift_le h
  have hround : 2 * (quotientSignificand num den * (den * 2 ^ quotientShift num den)) ≤
      2 * (num * unitsPerOne) + den * 2 ^ quotientShift num den := roundHalfEven_le
  rw [nearest_eq]
  generalize quotientSignificand num den = s at hround ⊢
  generalize quotientShift num den = k at hround hshift ⊢
  generalize num * unitsPerOne = scaled at h hround
  by_cases hs : s = 2 * leastNormal
  · have hk : k ≠ maxShift := by
      rintro rfl
      have hpos : 0 < den * 2 ^ maxShift := Nat.mul_pos hd (Nat.pow_pos (by decide))
      rw [twiceLimit_eq, Nat.mul_left_comm] at h
      rw [hs, leastNormal] at hround
      generalize den * 2 ^ maxShift = step at h hround hpos
      omega
    rw [if_pos hs, if_pos (by omega)]
    rfl
  · rw [if_neg hs, if_pos hshift]
    rfl

/-! ### How far rounding goes -/

theorem two_mul_units_le {num den : Nat} {m : Magnitude} (h : nearest num den = some m) :
    2 * (m.units * den) ≤ 3 * (num * unitsPerOne) + den := by
  have hround : 2 * (quotientSignificand num den * (den * 2 ^ quotientShift num den)) ≤
      2 * (num * unitsPerOne) + den * 2 ^ quotientShift num den := roundHalfEven_le
  have hstep : den * 2 ^ quotientShift num den ≤ den + num * unitsPerOne := shift_step_le
  have hunits : m.units * den = quotientSignificand num den * (den * 2 ^ quotientShift num den) := by
    rw [(nearest_spec h).2]
    ring
  rw [hunits]
  generalize quotientSignificand num den * (den * 2 ^ quotientShift num den) = u at hround ⊢
  generalize den * 2 ^ quotientShift num den = step at hround hstep
  generalize num * unitsPerOne = scaled at hround hstep ⊢
  omega

section

variable {num den : Nat} {m : Magnitude} (hd : 0 < den) (hn : den * leastNormal ≤ num * unitsPerOne)

include hd hn

theorem units_le_of_normal (h : nearest num den = some m) :
    2 * leastNormal * (m.units * den) ≤ (2 * leastNormal + 1) * (num * unitsPerOne) := by
  have hround : 2 * (quotientSignificand num den * (den * 2 ^ quotientShift num den)) ≤
      2 * (num * unitsPerOne) + den * 2 ^ quotientShift num den := roundHalfEven_le
  have hstep := shift_step_le_of_normal hd hn
  have hunits : m.units * den = quotientSignificand num den * (den * 2 ^ quotientShift num den) := by
    rw [(nearest_spec h).2]
    ring
  rw [hunits]
  generalize quotientSignificand num den * (den * 2 ^ quotientShift num den) = u at hround ⊢
  generalize den * 2 ^ quotientShift num den = step at hround hstep
  generalize num * unitsPerOne = scaled at hround hstep ⊢
  rw [leastNormal] at hstep ⊢
  omega

theorem le_two_mul_units_of_normal (h : nearest num den = some m) :
    num * unitsPerOne ≤ 2 * (m.units * den) := by
  have hpos : 0 < den * 2 ^ quotientShift num den := Nat.mul_pos hd (Nat.pow_pos (by decide))
  have hround : 2 * (num * unitsPerOne) ≤
      2 * (quotientSignificand num den * (den * 2 ^ quotientShift num den)) +
        den * 2 ^ quotientShift num den := by
    rw [quotientSignificand, Nat.pow_eq]
    exact le_roundHalfEven hpos
  have hstep := shift_step_le_of_normal hd hn
  have hunits : m.units * den = quotientSignificand num den * (den * 2 ^ quotientShift num den) := by
    rw [(nearest_spec h).2]
    ring
  rw [hunits]
  generalize quotientSignificand num den * (den * 2 ^ quotientShift num den) = u at hround ⊢
  generalize den * 2 ^ quotientShift num den = step at hround hstep
  generalize num * unitsPerOne = scaled at hround hstep ⊢
  rw [leastNormal] at hstep
  omega

end

end Magnitude

end EnginePipe.Real
