import EnginePipe.Json.Reader
import EnginePipe.Proofs.Real.Rounding
import EnginePipe.Real.Shortest

/-!
# Scaling by powers of ten stays finite

A number is read as a significand that is scaled by a power of ten.  The significand is rounded, the
power is rounded, and so is what they give together.  Dividing never leaves the finite range
(`scaleTen_isSome_of_neg`).  Multiplying does not if the exact product leaves room for the other two
roundings (`Scalable`, `scaleTen_isSome_of_nonneg`).

* `AtMost`: a decimal is bounded, in quarters of a unit, whichever sign its exponent has.
* `AtMost.shift`: moving the point keeps the bound.
-/

namespace EnginePipe.Json

open EnginePipe.Real (Magnitude)
open EnginePipe.Real.Magnitude (unitsPerOne leastNormal twiceLimit nearest tenRatio)

/-! ### Scaling by powers of ten -/

theorem leastNormal_le_unitsPerOne : leastNormal ≤ unitsPerOne := by
  have hpow : ∀ k, 52 ≤ k → leastNormal ≤ Nat.pow 2 k := fun k hk =>
    Nat.le_trans (by decide : leastNormal ≤ 2 ^ 52) (Nat.pow_le_pow_right (by decide) hk)
  unfold unitsPerOne
  exact hpow 1074 (by decide)

theorem unitsPerOne_pos : 0 < unitsPerOne :=
  Nat.lt_of_lt_of_le (by decide) leastNormal_le_unitsPerOne

/-- The greatest power of ten that is a single factor is finite, and with the next one all numbers are passed. -/
theorem power_limits : 2 * (10 ^ maxPower * unitsPerOne) < twiceLimit ∧
    2 * twiceLimit < 4 * (10 ^ (maxPower + 1) * unitsPerOne) := by decide +kernel

/-- The powers of ten up to the greatest single factor are finite, and their rounded values are near. -/
theorem exists_power {k : Nat} (hk : k ≤ maxPower) :
    ∃ p, nearest (Nat.pow 10 k) 1 = some p ∧
      2 * leastNormal * p.units ≤ (2 * leastNormal + 1) * (10 ^ k * unitsPerOne) ∧
      10 ^ k * unitsPerOne ≤ 2 * p.units := by
  have hone : 1 ≤ 10 ^ k := Nat.pow_pos (by decide)
  have hle : 10 ^ k * unitsPerOne ≤ 10 ^ maxPower * unitsPerOne :=
    Nat.mul_le_mul_right _ (Nat.pow_le_pow_right (by decide) hk)
  have hfinite : 2 * (10 ^ k * unitsPerOne) < 1 * twiceLimit := by
    have := power_limits.1
    omega
  have hnormal : 1 * leastNormal ≤ 10 ^ k * unitsPerOne := by
    have h1 := leastNormal_le_unitsPerOne
    have h2 := Nat.mul_le_mul_right unitsPerOne hone
    omega
  have hsome : (nearest (10 ^ k) 1).isSome := Magnitude.nearest_isSome Nat.one_pos hfinite
  obtain ⟨p, hp⟩ := Option.isSome_iff_exists.1 hsome
  have hupper := Magnitude.units_le_of_normal Nat.one_pos hnormal hp
  have hlower := Magnitude.le_two_mul_units_of_normal Nat.one_pos hnormal hp
  rw [Nat.mul_one] at hupper hlower
  exact ⟨p, hp, hupper, hlower⟩

/-- More units than any significand has. -/
@[irreducible] def wholeLimit : Nat := 2 * (significandBound * unitsPerOne)

theorem four_mul_wholeLimit_lt : 4 * wholeLimit < twiceLimit := by
  have hpow : 4 * significandBound ≤ 10 ^ maxPower :=
    Nat.le_trans (by decide : 4 * significandBound ≤ 10 ^ 20) (Nat.pow_le_pow_right (by decide) (by decide))
  have hunits := Nat.mul_le_mul_right unitsPerOne hpow
  have hlimit := power_limits.1
  rw [Nat.mul_assoc] at hunits
  unfold wholeLimit
  omega

theorem two_le_wholeLimit : 2 ≤ wholeLimit := by
  have hpos : 0 < significandBound * unitsPerOne := Nat.mul_pos (by decide) unitsPerOne_pos
  unfold wholeLimit
  omega

theorem div_isSome {m p : Magnitude} (hm : m.units ≤ wholeLimit) (hp : unitsPerOne ≤ 2 * p.units) :
    (m.div p).isSome := by
  have hpos := unitsPerOne_pos
  have hp0 : 0 < p.units := by omega
  have h1 : 2 * (m.units * unitsPerOne) ≤ 2 * (wholeLimit * (2 * p.units)) :=
    Nat.mul_le_mul_left 2 (Nat.mul_le_mul hm hp)
  have h2 : 2 * (wholeLimit * (2 * p.units)) = p.units * (4 * wholeLimit) := by ring
  have h3 : p.units * (4 * wholeLimit) < p.units * twiceLimit :=
    Nat.mul_lt_mul_of_pos_left four_mul_wholeLimit_lt hp0
  rw [Magnitude.div, if_neg (Nat.pos_iff_ne_zero.1 hp0)]
  exact Magnitude.nearest_isSome hp0 (by omega)

theorem units_div_le {m p q : Magnitude} (hm : m.units ≤ wholeLimit)
    (hp : 2 * unitsPerOne ≤ p.units) (h : m.div p = some q) : q.units ≤ wholeLimit := by
  have hpos := unitsPerOne_pos
  have hp0 : 0 < p.units := by omega
  rw [Magnitude.div, if_neg (Nat.pos_iff_ne_zero.1 hp0)] at h
  have hle := Magnitude.two_mul_units_le h
  have h1 : 2 * (m.units * unitsPerOne) ≤ wholeLimit * p.units := by
    have := Nat.mul_le_mul hm hp
    rwa [Nat.mul_left_comm] at this
  have h2 := Nat.mul_le_mul_right p.units two_le_wholeLimit
  refine Nat.le_of_mul_le_mul_right ?_ hp0
  omega

theorem scaleTen_isSome_of_neg {m : Magnitude} {e : Int} (he : e < 0) (hm : m.units ≤ wholeLimit) :
    (scaleTen m e).isSome := by
  induction hn : e.natAbs using Nat.strongRecOn generalizing m e with
  | ind n ih =>
    have hneg : ¬ 0 ≤ e := by omega
    rw [scaleTen]
    split
    · next hsmall =>
      obtain ⟨p, hp, _, hlower⟩ := exists_power hsmall
      have hone : 1 ≤ 10 ^ e.natAbs := Nat.pow_pos (by decide)
      have hunit := Nat.mul_le_mul_right unitsPerOne hone
      rw [hp, Option.bind_eq_bind, Option.bind_some]
      exact div_isSome hm (by omega)
    split
    · rfl
    · next hlarge _ =>
      obtain ⟨p, hp, _, hlower⟩ := exists_power (Nat.le_refl maxPower)
      have hfour : 4 ≤ 10 ^ maxPower :=
        Nat.le_trans (by decide : 4 ≤ 10 ^ 1) (Nat.pow_le_pow_right (by decide) (by decide))
      have hunit := Nat.mul_le_mul_right unitsPerOne hfour
      obtain ⟨q, hq⟩ := Option.isSome_iff_exists.1 (div_isSome (p := p) hm (by omega))
      have hqle := units_div_le hm (by omega) hq
      rw [hp, Option.bind_eq_bind, Option.bind_some, hq, Option.bind_some]
      rw [maxPower] at hlarge ⊢
      exact ih _ (by omega) (by omega) hqle rfl

/-- What a product of a rounded significand and a rounded power may be, in quarters of a unit, to
stay finite after one more rounding. -/
def Scalable (most : Nat) : Prop :=
  (2 * leastNormal + 1) * (2 * leastNormal + 1) * most <
    2 * leastNormal * (2 * leastNormal) * (2 * twiceLimit)

theorem mul_isSome {m p : Magnitude} {s t most : Nat} (hmost : Scalable most)
    (hs : 2 * leastNormal * m.units ≤ (2 * leastNormal + 1) * (s * unitsPerOne))
    (ht : 2 * leastNormal * p.units ≤ (2 * leastNormal + 1) * (t * unitsPerOne))
    (h : 4 * (s * t * unitsPerOne) ≤ most) : (m.mul p).isSome := by
  have hpos := unitsPerOne_pos
  have hU := Nat.mul_pos hpos hpos
  refine Magnitude.nearest_isSome hU ?_
  have hprod := Nat.mul_le_mul hs ht
  have h1 := Nat.mul_le_mul_left ((2 * leastNormal + 1) * (2 * leastNormal + 1)) h
  have h2 := Nat.lt_of_le_of_lt h1 hmost
  have hL : 0 < 2 * leastNormal * (2 * leastNormal) := by decide
  have h3 := Nat.mul_lt_mul_of_pos_right h2 hU
  refine Nat.lt_of_mul_lt_mul_left (a := 2 * (2 * leastNormal * (2 * leastNormal))) ?_
  calc 2 * (2 * leastNormal * (2 * leastNormal)) * (2 * (m.units * p.units * unitsPerOne))
      = 4 * (2 * leastNormal * m.units * (2 * leastNormal * p.units)) * unitsPerOne := by ring
    _ ≤ 4 * ((2 * leastNormal + 1) * (s * unitsPerOne) * ((2 * leastNormal + 1) * (t * unitsPerOne)))
          * unitsPerOne := Nat.mul_le_mul_right _ (Nat.mul_le_mul_left 4 hprod)
    _ = (2 * leastNormal + 1) * (2 * leastNormal + 1) * (4 * (s * t * unitsPerOne)) *
          (unitsPerOne * unitsPerOne) := by ring
    _ < 2 * leastNormal * (2 * leastNormal) * (2 * twiceLimit) * (unitsPerOne * unitsPerOne) := h3
    _ = 2 * (2 * leastNormal * (2 * leastNormal)) * (unitsPerOne * unitsPerOne * twiceLimit) := by ring

theorem scaleTen_isSome_of_mul {m p : Magnitude} {e : Int} (he : 0 ≤ e) (hle : e.natAbs ≤ maxPower)
    (hp : nearest (Nat.pow 10 e.natAbs) 1 = some p) (h : (m.mul p).isSome) :
    (scaleTen m e).isSome := by
  rw [scaleTen, dif_pos hle, hp, Option.bind_eq_bind, Option.bind_some, if_pos he]
  exact h

theorem scaleTen_isSome_of_nonneg {m : Magnitude} {e : Int} {s most : Nat} (he : 0 ≤ e)
    (hle : e.toNat ≤ maxPower) (hmost : Scalable most)
    (hs : 2 * leastNormal * m.units ≤ (2 * leastNormal + 1) * (s * unitsPerOne))
    (h : 4 * (s * 10 ^ e.toNat * unitsPerOne) ≤ most) : (scaleTen m e).isSome := by
  have habs : e.natAbs = e.toNat := by omega
  obtain ⟨p, hp, hupper, _⟩ := exists_power hle
  exact scaleTen_isSome_of_mul he (habs ▸ hle) (habs ▸ hp) (mul_isSome hmost hs hupper h)

/-! ### Bounded decimals -/

/-- `n * 10 ^ e` is at most `most` quarters of a unit. -/
def AtMost (n : Nat) (e : Int) (most : Nat) : Prop :=
  4 * (n * 10 ^ e.toNat * unitsPerOne) ≤ most * 10 ^ (-e).toNat

theorem tenRatio_eq (n : Nat) (e : Int) : tenRatio n e = (n * 10 ^ e.toNat, 10 ^ (-e).toNat) := by
  unfold tenRatio
  split
  · next h => rw [show (-e).toNat = 0 by omega, Nat.pow_zero, Nat.pow_eq]
  · next h => rw [show e.toNat = 0 by omega, Nat.pow_zero, Nat.mul_one, Nat.pow_eq]

theorem atMost_of_readsBack {m : Magnitude} {n : Nat} {e : Int}
    (h : m.readsBack (tenRatio n e).1 (tenRatio n e).2) :
    AtMost n e (4 * m.units + 2 * 2 ^ m.shift) := by
  rw [tenRatio_eq, Magnitude.readsBack] at h
  dsimp only at h
  rw [AtMost, ← Nat.mul_assoc, ← Nat.pow_eq]
  split at h
  · exact of_decide_eq_true (Bool.and_eq_true_iff.1 h).2
  · exact Nat.le_of_lt (of_decide_eq_true (Bool.and_eq_true_iff.1 h).2)

theorem AtMost.mono {n n' : Nat} {e : Int} {most : Nat} (h : AtMost n e most) (hn : n' ≤ n) :
    AtMost n' e most := by
  refine Nat.le_trans ?_ h
  exact Nat.mul_le_mul_left 4 (Nat.mul_le_mul_right _ (Nat.mul_le_mul_right _ hn))

theorem AtMost.tenth {n : Nat} {e : Int} {most : Nat} (h : AtMost (n * 10) e most) :
    AtMost n (e + 1) most := by
  rw [AtMost] at h ⊢
  by_cases he : 0 ≤ e
  · rw [show (-e).toNat = 0 by omega] at h
    rw [show (e + 1).toNat = e.toNat + 1 by omega, show (-(e + 1)).toNat = 0 by omega, Nat.pow_succ]
    rwa [Nat.mul_assoc n, Nat.mul_comm 10] at h
  · rw [show e.toNat = 0 by omega, show (-e).toNat = (-(e + 1)).toNat + 1 by omega, Nat.pow_succ,
      Nat.pow_zero, Nat.mul_one] at h
    rw [show (e + 1).toNat = 0 by omega, Nat.pow_zero, Nat.mul_one]
    refine Nat.le_of_mul_le_mul_right (c := 10) ?_ (by decide)
    calc 4 * (n * unitsPerOne) * 10 = 4 * (n * 10 * unitsPerOne) := by ring
      _ ≤ most * (10 ^ (-(e + 1)).toNat * 10) := h
      _ = most * 10 ^ (-(e + 1)).toNat * 10 := by ring

theorem AtMost.shift {n k : Nat} {e : Int} {most : Nat} (h : AtMost (n * 10 ^ k) e most) :
    AtMost n (e + k) most := by
  induction k generalizing e with
  | zero => simpa using h
  | succ k ih =>
    rw [Nat.pow_succ, ← Nat.mul_assoc] at h
    have := ih h.tenth
    rwa [show e + 1 + (k : Int) = e + ((k + 1 : Nat) : Int) by omega] at this

theorem ten_pow_lt_of_atMost {n : Nat} {e : Int} {most : Nat} (hmost : Scalable most) (hn : n ≠ 0)
    (h : AtMost n e most) : e ≤ maxPower := by
  by_contra hlt
  have hle : most ≤ 2 * twiceLimit := by
    rw [Scalable] at hmost
    by_contra hgt
    have h1 : 2 * leastNormal * (2 * leastNormal) * (2 * twiceLimit) ≤
        (2 * leastNormal + 1) * (2 * leastNormal + 1) * most :=
      Nat.mul_le_mul (by decide) (by omega)
    omega
  have hbig := power_limits.2
  have hpow : 10 ^ (maxPower + 1) ≤ n * 10 ^ e.toNat := by
    have h1 : 10 ^ (maxPower + 1) ≤ 10 ^ e.toNat := Nat.pow_le_pow_right (by decide) (by omega)
    have h2 := Nat.mul_le_mul_right (10 ^ e.toNat) (Nat.pos_iff_ne_zero.2 hn)
    omega
  have h3 := Nat.mul_le_mul_left 4 (Nat.mul_le_mul_right unitsPerOne hpow)
  rw [AtMost, show (-e).toNat = 0 by omega, Nat.pow_zero, Nat.mul_one] at h
  omega

end EnginePipe.Json
