import EnginePipe.Proofs.Json.ReadBack
import EnginePipe.Proofs.Json.Scaling

/-!
# Printed reals are read

The text of a finite real is read as a finite real, though maybe not the same one.  A text that is laid
out positionally has few digits before its point and is only ever divided by a power of ten.  A text
with an exponent is at most half a step above its number, as its decimal reads back exactly; that leaves
room for the two roundings that come first, except near the greatest number.

* `text_value_isSome`: the text of a bounded decimal has a finite value.
* `legible_of_finite`: **the text of every finite real is read**.
-/

namespace EnginePipe.Json

open EnginePipe.Real (Magnitude Decimal)
open EnginePipe.Real.Magnitude (unitsPerOne leastNormal nearest)

/-! ### Bounded texts -/

theorem absorb_lt {s : Nat} (hs : s < significandBound) (ds : List Char) :
    (absorb s ds).1 < significandBound := by
  induction ds generalizing s with
  | nil => exact hs
  | cons d ds ih =>
    rw [absorb]
    split
    · next h => exact ih h
    · exact hs

theorem le_absorb (s : Nat) (ds : List Char) : s ≤ (absorb s ds).1 := by
  induction ds generalizing s with
  | nil => exact Nat.le_refl s
  | cons d ds ih =>
    rw [absorb]
    split
    · have := ih (10 * s + digitValue d)
      omega
    · exact Nat.le_refl s

theorem length_absorb_le (s : Nat) (ds : List Char) : (absorb s ds).2.length ≤ ds.length := by
  induction ds generalizing s with
  | nil => exact Nat.le_refl 0
  | cons d ds ih =>
    rw [absorb]
    split
    · exact Nat.le_succ_of_le (ih _)
    · exact Nat.le_refl _

theorem mul_pow_le_ofDigitChars (s : Nat) (ds : List Char) :
    s * 10 ^ ds.length ≤ Nat.ofDigitChars 10 ds s := by
  induction ds generalizing s with
  | nil => simp
  | cons d ds ih =>
    rw [Nat.ofDigitChars_cons, List.length_cons, Nat.pow_succ]
    have h := ih (10 * s + (d.toNat - '0'.toNat))
    have hle : 10 * s * 10 ^ ds.length ≤ (10 * s + (d.toNat - '0'.toNat)) * 10 ^ ds.length :=
      Nat.mul_le_mul_right _ (Nat.le_add_right _ _)
    calc s * (10 ^ ds.length * 10) = 10 * s * 10 ^ ds.length := by ring
      _ ≤ _ := hle
      _ ≤ _ := h

/-- The digits that do not go into a significand count as zeros. -/
theorem absorb_mul_pow_le (s : Nat) (ds : List Char) :
    (absorb s ds).1 * 10 ^ (absorb s ds).2.length ≤ Nat.ofDigitChars 10 ds s := by
  induction ds generalizing s with
  | nil => simp [absorb]
  | cons d ds ih =>
    rw [absorb]
    split
    · rw [Nat.ofDigitChars_cons]
      exact ih _
    · exact mul_pow_le_ofDigitChars s (d :: ds)

theorem toNat_of_isDigit {c : Char} (h : c.isDigit) : '0'.toNat ≤ c.toNat ∧ c.toNat ≤ '9'.toNat := by
  simp only [Char.isDigit, Bool.and_eq_true, decide_eq_true_eq] at h
  exact h

theorem digitValue_lt {c : Char} (h : c.isDigit) : digitValue c < 10 := by
  have hc := toNat_of_isDigit h
  have h9 : '9'.toNat = '0'.toNat + 9 := rfl
  rw [digitValue]
  omega

theorem digitValue_pos {c : Char} (h : c.isDigit) (h0 : c ≠ '0') : 0 < digitValue c := by
  have hc := toNat_of_isDigit h
  have hne : c.toNat ≠ '0'.toNat := fun he => h0 (Char.toNat_inj.1 he)
  rw [digitValue]
  omega

theorem ofDigitChars_lt {ds : List Char} (hd : ∀ d ∈ ds, d.isDigit) (s : Nat) :
    Nat.ofDigitChars 10 ds s < (s + 1) * 10 ^ ds.length := by
  induction ds generalizing s with
  | nil => simp
  | cons d ds ih =>
    have hten : d.toNat - '0'.toNat < 10 := digitValue_lt (hd d (by simp))
    have h := ih (fun e he => hd e (List.mem_cons_of_mem d he)) (10 * s + (d.toNat - '0'.toNat))
    rw [Nat.ofDigitChars_cons, List.length_cons, Nat.pow_succ]
    refine Nat.lt_of_lt_of_le h ?_
    calc (10 * s + (d.toNat - '0'.toNat) + 1) * 10 ^ ds.length
        ≤ (10 * s + 10) * 10 ^ ds.length := Nat.mul_le_mul_right _ (by omega)
      _ = (s + 1) * (10 ^ ds.length * 10) := by ring

/-- A few digits go into a significand. -/
theorem absorb_of_length_le {ds : List Char} (hd : ∀ d ∈ ds, d.isDigit) (hl : ds.length ≤ 16) :
    (absorb 0 ds).2 = [] := by
  have hlt := ofDigitChars_lt hd 0
  have hpow : 10 ^ ds.length ≤ 10 ^ 16 := Nat.pow_le_pow_right (by decide) hl
  have hbound : 10 ^ 16 < significandBound := by decide
  rw [absorb_of_lt (by omega)]

/-! ### Texts with a finite value -/

theorem exists_nearest_whole {s : Nat} (hs : s < significandBound) :
    ∃ m, nearest s 1 = some m ∧ m.units ≤ wholeLimit ∧
      2 * leastNormal * m.units ≤ (2 * leastNormal + 1) * (s * unitsPerOne) := by
  have hlimit : 2 * (s * unitsPerOne) ≤ wholeLimit := by
    unfold wholeLimit
    exact Nat.mul_le_mul_left 2 (Nat.mul_le_mul_right _ (Nat.le_of_lt hs))
  have hsmall := four_mul_wholeLimit_lt
  have hsome : (nearest s 1).isSome := Magnitude.nearest_isSome Nat.one_pos (by omega)
  obtain ⟨m, hm⟩ := Option.isSome_iff_exists.1 hsome
  refine ⟨m, hm, ?_, ?_⟩
  · have hle := Magnitude.two_mul_units_le hm
    have htwo := two_le_wholeLimit
    omega
  · by_cases h0 : s = 0
    · subst h0
      rw [Magnitude.nearest_zero] at hm
      cases hm
      simp [Magnitude.units, Magnitude.zero]
    · have hnormal : 1 * leastNormal ≤ s * unitsPerOne := by
        have h1 := leastNormal_le_unitsPerOne
        have h2 := Nat.mul_le_mul_right unitsPerOne (Nat.pos_iff_ne_zero.2 h0)
        omega
      have hupper := Magnitude.units_le_of_normal Nat.one_pos hnormal hm
      rwa [Nat.mul_one] at hupper

theorem scalable_wholeLimit : Scalable (2 * wholeLimit) := by
  have hsquare : (2 * leastNormal + 1) * (2 * leastNormal + 1) ≤ 2 * leastNormal * (2 * leastNormal) * 2 := by
    decide
  have hrounded := Nat.mul_le_mul_right (2 * wholeLimit) hsquare
  have hlimit : 2 * (2 * wholeLimit) < 2 * Magnitude.twiceLimit := by
    have := four_mul_wholeLimit_lt
    omega
  rw [Nat.mul_assoc _ 2] at hrounded
  exact Nat.lt_of_le_of_lt hrounded (Nat.mul_lt_mul_of_pos_left hlimit (by decide))

theorem realOf_isSome_of_nonpos {s : Nat} {places : Int} (hs : s < significandBound)
    (hp : places ≤ 0) : (realOf s places none).isSome := by
  obtain ⟨m, hm, hunits, hupper⟩ := exists_nearest_whole hs
  have hnone : Nat.ofDigitChars 10 ['0'] 0 = 0 := rfl
  rw [realOf]
  simp only [Option.getD_none, hnone, maxExponent, Nat.not_lt_zero, if_false, hm,
    Option.bind_eq_bind, Option.bind_some, Bool.false_eq_true]
  rcases Int.lt_or_eq_of_le hp with hlt | rfl
  · exact scaleTen_isSome_of_neg (by omega) hunits
  · refine scaleTen_isSome_of_nonneg (by omega) (by decide) scalable_wholeLimit hupper ?_
    unfold wholeLimit
    have := Nat.mul_le_mul_right unitsPerOne (Nat.le_of_lt hs)
    show 4 * (s * 1 * unitsPerOne) ≤ _
    rw [Nat.mul_one]
    omega

theorem realOf_isSome_of_atMost {s : Nat} {places leading : Int} {most : Nat}
    (hs : s < significandBound) (hs0 : s ≠ 0) (hmost : Scalable most) (hl : leading ≤ maxPower)
    (h : AtMost s (places + leading) most) :
    (realOf s places (some (decide (leading < 0), printNat leading.natAbs))).isSome := by
  obtain ⟨m, hm, hunits, hupper⟩ := exists_nearest_whole hs
  have hle := ten_pow_lt_of_atMost hmost hs0 h
  have hexp : (places + if decide (leading < 0) then -(leading.natAbs : Int) else leading.natAbs) =
      places + leading := by
    split
    · next hneg => rw [decide_eq_true_eq] at hneg; omega
    · next hneg => rw [decide_eq_true_eq] at hneg; omega
  rw [realOf]
  simp only [Option.getD_some, ofDigitChars_printNat]
  split
  · next hbig =>
    rw [maxExponent] at hbig
    rw [maxPower] at hl
    rw [if_pos (Or.inl (by rw [decide_eq_true_eq]; omega))]
    rfl
  · rw [hm, Option.bind_eq_bind, Option.bind_some, hexp]
    by_cases hneg : places + leading < 0
    · exact scaleTen_isSome_of_neg hneg hunits
    · refine scaleTen_isSome_of_nonneg (by omega) (by omega) hmost hupper ?_
      rwa [AtMost, show (-(places + leading)).toNat = 0 by omega, Nat.pow_zero, Nat.mul_one] at h

theorem NumberText.value_isSome {t : NumberText}
    (h : (realOf (absorb (absorb 0 t.whole).1 t.fraction).1
      ((absorb 0 t.whole).2.length -
        (t.fraction.length - (absorb (absorb 0 t.whole).1 t.fraction).2.length))
      t.exponent).isSome) : t.value.isSome := by
  unfold NumberText.value
  dsimp only
  split
  · rfl
  · rw [Option.isSome_map]
    exact h

theorem absorb_absorb_lt (whole ds : List Char) :
    (absorb (absorb 0 whole).1 ds).1 < significandBound :=
  absorb_lt (absorb_lt (by decide) whole) ds

/-- A text without an exponent has a finite value if its whole part is no longer than sixteen digits. -/
theorem NumberText.value_isSome_of_short {t : NumberText} (he : t.exponent = none)
    (hd : ∀ d ∈ t.whole, d.isDigit) (hl : t.whole.length ≤ 16) : t.value.isSome := by
  refine NumberText.value_isSome ?_
  have hlen := length_absorb_le (absorb 0 t.whole).1 t.fraction
  rw [he, absorb_of_length_le hd hl, List.length_nil]
  refine realOf_isSome_of_nonpos (absorb_absorb_lt t.whole t.fraction) ?_
  omega

/-- The text of a decimal has a finite value if the decimal is bounded. -/
theorem text_value_isSome {d : Decimal} {most : Nat} (hmost : Scalable most)
    (h : AtMost d.digits d.exponent most) (negative : Bool) :
    NumberText.value ⟨negative, (realLayout.text d).whole, (realLayout.text d).fraction,
      (realLayout.text d).exponent⟩ |>.isSome := by
  have hproper := realLayout.text_proper d
  by_cases hshort : (realLayout.text d).exponent = none ∧ (realLayout.text d).whole.length ≤ 16
  · exact NumberText.value_isSome_of_short hshort.1 hproper.whole_digits hshort.2
  unfold RealLayout.text at hshort ⊢
  dsimp only at hshort ⊢
  split at hshort
  · exact absurd ⟨rfl, by decide⟩ hshort
  next h0 =>
  obtain ⟨c, cs, hc, hne⟩ := exists_printNat_of_pos h0
  have hdig : c.isDigit := isDigit_of_mem_printNat (hc ▸ List.mem_cons_self)
  rw [if_neg h0, hc]
  rw [hc] at hshort
  split at hshort
  · next hlead =>
    refine absurd ?_ hshort
    simp only [realLayout, List.length_cons] at hlead
    split
    · refine ⟨rfl, ?_⟩
      simp only [List.length_append, List.length_cons, List.length_replicate]
      omega
    split
    · refine ⟨rfl, ?_⟩
      simp only [List.length_take, List.length_cons]
      omega
    · exact ⟨rfl, Nat.le_of_ble_eq_true rfl⟩
  · next hlead =>
    rw [if_neg hlead]
    have hvalue : Nat.ofDigitChars 10 cs (digitValue c) = d.digits := by
      have hdigits := ofDigitChars_printNat d.digits
      rwa [hc, Nat.ofDigitChars_cons, Nat.mul_zero, Nat.zero_add] at hdigits
    have hc0 := digitValue_pos hdig hne
    have hc10 : digitValue c < significandBound := Nat.lt_trans (digitValue_lt hdig) (by decide)
    have hfirst : absorb 0 [c] = (digitValue c, []) := by
      rw [absorb, Nat.mul_zero, Nat.zero_add, if_pos hc10, absorb]
    refine NumberText.value_isSome ?_
    show (realOf (absorb (absorb 0 [c]).1 cs).1 ((absorb 0 [c]).2.length -
      (cs.length - (absorb (absorb 0 [c]).1 cs).2.length)) _).isSome
    rw [hfirst]
    have hlen := length_absorb_le (digitValue c) cs
    have hpow := absorb_mul_pow_le (digitValue c) cs
    have hge := le_absorb (digitValue c) cs
    rw [hvalue] at hpow
    have hne0 := Nat.pos_iff_ne_zero.1 (Nat.lt_of_lt_of_le hc0 hge)
    refine realOf_isSome_of_atMost (absorb_lt hc10 cs) hne0 hmost ?_ ?_
    · have hlead : AtMost (1 * 10 ^ cs.length) d.exponent most := by
        refine h.mono ?_
        rw [← hvalue]
        exact Nat.le_trans (Nat.mul_le_mul_right _ hc0) (mul_pow_le_ofDigitChars _ cs)
      have := ten_pow_lt_of_atMost hmost Nat.one_ne_zero hlead.shift
      rw [List.length_cons]
      omega
    · have := (h.mono hpow).shift
      rw [List.length_cons, List.length_nil]
      rwa [show ((0 : Nat) : Int) - (cs.length - (absorb (digitValue c) cs).2.length) +
        (d.exponent + ((cs.length + 1 : Nat) : Int) - 1) =
        d.exponent + ((absorb (digitValue c) cs).2.length : Int) by omega]

/-! ### The shortest decimal of a finite number -/

theorem atMost_stripZeros {most : Nat} (fuel : Nat) {d : Decimal}
    (h : AtMost d.digits d.exponent most) :
    AtMost (Magnitude.stripZeros fuel d).digits (Magnitude.stripZeros fuel d).exponent most := by
  induction fuel generalizing d with
  | zero => exact h
  | succ fuel ih =>
    rw [Magnitude.stripZeros]
    split
    · refine ih (AtMost.tenth (h.mono ?_))
      exact Nat.div_mul_le_self d.digits 10
    · exact h

theorem atMost_of_ofDigitCount {m : Magnitude} {k : Int} {count : Nat} {d : Decimal}
    (h : m.ofDigitCount? k count = some d) :
    AtMost d.digits d.exponent (4 * m.units + 2 * 2 ^ m.shift) := by
  unfold Magnitude.ofDigitCount? at h
  obtain ⟨hfits, he⟩ := Magnitude.firstFitting?_spec h
  rw [he]
  exact atMost_of_readsBack hfits

theorem atMost_shortest (m : Magnitude) :
    AtMost m.shortest.digits m.shortest.exponent (4 * m.units + 2 * 2 ^ m.shift) := by
  have hzero : AtMost 0 0 (4 * m.units + 2 * 2 ^ m.shift) := by
    rw [AtMost, Nat.zero_mul, Nat.zero_mul]
    exact Nat.zero_le _
  unfold Magnitude.shortest
  by_cases h0 : m.significand = 0
  · rw [if_pos h0]
    exact hzero
  rw [if_neg h0]
  generalize m.decimalMagnitude 700 310 = k
  dsimp only
  generalize hfound : (List.range 17).findSome? (fun i => m.ofDigitCount? k (i + 1)) = found
  cases found with
  | none => exact hzero
  | some d =>
    obtain ⟨i, _, hi⟩ := List.exists_of_findSome?_eq_some hfound
    exact atMost_stripZeros 20 (atMost_of_ofDigitCount hi)

theorem Scalable.mono {most most' : Nat} (h : Scalable most) (hle : most' ≤ most) :
    Scalable most' := Nat.lt_of_le_of_lt (Nat.mul_le_mul_left _ hle) h

/-- The last significand under which both roundings of a greatest shift stay in bounds. -/
def lastScalable : Nat := 2 * leastNormal - 4

theorem scalable_lastScalable :
    Scalable ((4 * lastScalable + 2) * 2 ^ Magnitude.maxShift) := by
  unfold Scalable
  decide +kernel

theorem scalable_of_finite {m : Magnitude} (hm : m.Finite)
    (h : m.significand ≤ lastScalable ∨ m.shift < Magnitude.maxShift) :
    Scalable (4 * m.units + 2 * 2 ^ m.shift) := by
  obtain ⟨significand, shift⟩ := m
  refine scalable_lastScalable.mono ?_
  have hlt : significand < 2 * leastNormal := hm.significand_lt
  have heq : 4 * (significand * 2 ^ shift) + 2 * 2 ^ shift = (4 * significand + 2) * 2 ^ shift := by ring
  rw [Magnitude.units_mk, heq]
  rcases h with h | h
  · have hle : significand ≤ lastScalable := h
    exact Nat.mul_le_mul (by omega) (Nat.pow_le_pow_right (by decide) hm.shift_le)
  · have hpow : 2 ^ (shift + 1) ≤ 2 ^ Magnitude.maxShift := Nat.pow_le_pow_right (by decide) h
    have hcoef : 4 * significand + 2 ≤ (4 * lastScalable + 2) * 2 := by
      rw [leastNormal] at hlt
      rw [lastScalable, leastNormal]
      omega
    calc (4 * significand + 2) * 2 ^ shift ≤ (4 * lastScalable + 2) * 2 * 2 ^ shift :=
        Nat.mul_le_mul_right _ hcoef
      _ = (4 * lastScalable + 2) * 2 ^ (shift + 1) := by rw [Nat.pow_succ]; ring
      _ ≤ _ := Nat.mul_le_mul_left _ hpow

theorem legible_of_product {negative : Bool} {m power : Magnitude} (e : Int) (whole : Magnitude) (s : Nat)
    (ds : List Char) (he : (-16 : Int) + 308 = e) (he0 : 0 ≤ e) (hle : e.natAbs ≤ maxPower)
    (htext : realLayout.text m.shortest = ⟨false, ['1'], ds, some (false, ['3', '0', '8'])⟩)
    (hs : absorb 1 ds = (s, [])) (hlen : ds.length = 16) (hwhole : nearest s 1 = some whole)
    (hpower : nearest (Nat.pow 10 e.natAbs) 1 = some power) (h : (whole.mul power).isSome) :
    Legible ⟨negative, m⟩ := by
  have hfirst : absorb 0 ['1'] = (1, []) := by decide
  have hexp : Nat.ofDigitChars 10 ['3', '0', '8'] 0 = 308 := by decide
  show (NumberText.value ⟨negative, (realLayout.text m.shortest).whole, _, _⟩).isSome
  rw [htext]
  refine NumberText.value_isSome ?_
  dsimp only
  rw [hfirst, hs, hlen, realOf]
  simp only [Option.getD_some, hexp]
  rw [if_neg (by decide), hwhole, Option.bind_eq_bind, Option.bind_some]
  have hplaces : (([] : List Char).length : Int) - ((16 : Nat) - ([] : List Char).length) +
    (if false = true then -((308 : Nat) : Int) else (308 : Nat)) = e := he
  rw [hplaces]
  exact scaleTen_isSome_of_mul he0 hle hpower h

/-- The two roundings of the three greatest numbers are not covered by the bound, only by doing them. -/
theorem legible_greatest (negative : Bool) {significand : Nat} (hlt : significand < 2 * leastNormal)
    (h : lastScalable < significand) : Legible ⟨negative, ⟨significand, Magnitude.maxShift⟩⟩ := by
  have hpower : nearest (Nat.pow 10 (292 : Int).natAbs) 1 = some ⟨4512985939662074, 1992⟩ := by decide +kernel
  rw [lastScalable] at h
  obtain rfl | rfl | rfl : significand = 2 * leastNormal - 1 ∨ significand = 2 * leastNormal - 2 ∨
    significand = 2 * leastNormal - 3 := by omega
  · exact legible_of_product 292 ⟨8988465674311578, 1075⟩ 17976931348623157
      ['7', '9', '7', '6', '9', '3', '1', '3', '4', '8', '6', '2', '3', '1', '5', '7']
      (by decide) (by decide) (by decide) (by decide +kernel) (by decide) rfl (by decide +kernel) hpower
      (by decide +kernel)
  · exact legible_of_product 292 ⟨8988465674311578, 1075⟩ 17976931348623155
      ['7', '9', '7', '6', '9', '3', '1', '3', '4', '8', '6', '2', '3', '1', '5', '5']
      (by decide) (by decide) (by decide) (by decide +kernel) (by decide) rfl (by decide +kernel) hpower
      (by decide +kernel)
  · exact legible_of_product 292 ⟨8988465674311576, 1075⟩ 17976931348623153
      ['7', '9', '7', '6', '9', '3', '1', '3', '4', '8', '6', '2', '3', '1', '5', '3']
      (by decide) (by decide) (by decide) (by decide +kernel) (by decide) rfl (by decide +kernel) hpower
      (by decide +kernel)

/-- **The text of every finite real is read.** -/
theorem legible_of_finite {x : Real.Binary64} (hx : x.magnitude.Finite) : Legible x := by
  obtain ⟨negative, m⟩ := x
  by_cases h : m.significand ≤ lastScalable ∨ m.shift < Magnitude.maxShift
  · exact text_value_isSome (scalable_of_finite hx h) (atMost_shortest m) negative
  · obtain ⟨significand, shift⟩ := m
    simp only [not_or, Nat.not_le, Nat.not_lt] at h
    obtain rfl : shift = Magnitude.maxShift := Nat.le_antisymm hx.shift_le h.2
    exact legible_greatest negative hx.significand_lt h.1

end EnginePipe.Json
