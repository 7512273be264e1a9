import Mathlib.Algebra.Order.Field.Rat
import Mathlib.Algebra.Order.Ring.Cast
import Mathlib.Order.Compare
import ScreenedQuery.Proofs.Number.Rounding

/-!
# The order of binary64 numbers

A finite number denotes a rational number, and comparing numbers compares what they denote. Rounding
keeps the order of whole numbers and leaves alone what can be represented. A whole number therefore
never gets past a number when it is rounded, but it may be rounded to it.

## Main definitions

* `Binary64.units`, `Binary64.toRat`: what a finite number denotes, in units of `2⁻¹⁰⁷⁴` and as a
  rational number
* `Binary64.nearest`, `Binary64.nearestInt`: what a whole number of units is rounded to

## Main results

* `Binary64.compare_eq_toRat`: comparing numbers compares what they denote
* `Binary64.nearestInt_mono`, `Binary64.nearestInt_units`: rounding keeps the order, and numbers
* `Binary64.toRat_ofInt_le`, `Binary64.le_toRat_ofInt`: rounding stops at every number on the way
* `Binary64.toRat_ofInt_eq`: up to `2⁵³` whole numbers are not rounded
* `Binary64.toRat_ofInt_eq_iff_dvd`: which of the largest words are not rounded
-/

namespace ScreenedQuery

/-- Two comparisons have the same outcome if they agree on what is less. -/
theorem compare_eq_compare {α β : Type} [LinearOrder α] [LinearOrder β] {a b : α} {c d : β}
    (hlt : a < b ↔ c < d) (hgt : b < a ↔ d < c) : Ord.compare a b = Ord.compare c d := by
  cases h : Ord.compare c d with
  | lt => exact compare_lt_iff_lt.mpr (hlt.mpr (compare_lt_iff_lt.mp h))
  | eq =>
    have heq := compare_eq_iff_eq.mp h
    refine compare_eq_iff_eq.mpr (le_antisymm ?_ ?_)
    · exact not_lt.mp fun hless => (hgt.mp hless).ne' heq
    · exact not_lt.mp fun hless => (hlt.mp hless).ne heq
  | gt => exact compare_gt_iff_gt.mpr (hgt.mpr (compare_gt_iff_gt.mp h))

namespace Binary64

/-! ## What a number denotes -/

/-- What a finite number denotes, in units of `2⁻¹⁰⁷⁴`. -/
def units (x : Binary64) : Int := if x.isNegative then -x.scaled else x.scaled

/-- **The rational number that a finite number denotes.** -/
def toRat (x : Binary64) : ℚ := x.units / unitsInOne

variable {x y : Binary64}

theorem unitsInOne_cast_pos : (0 : ℚ) < unitsInOne := Nat.cast_pos.mpr unitsInOne_pos

theorem toRat_le_toRat_iff : x.toRat ≤ y.toRat ↔ x.units ≤ y.units := by
  rw [toRat, toRat, div_le_div_iff_of_pos_right unitsInOne_cast_pos, Int.cast_le]

theorem intCast_le_toRat_iff {n : Int} : (n : ℚ) ≤ x.toRat ↔ n * unitsInOne ≤ x.units := by
  rw [toRat, le_div_iff₀ unitsInOne_cast_pos]
  norm_cast

theorem toRat_le_intCast_iff {n : Int} : x.toRat ≤ n ↔ x.units ≤ n * unitsInOne := by
  rw [toRat, div_le_iff₀ unitsInOne_cast_pos]
  norm_cast

/-! ## Comparing numbers -/

theorem significand_lt (x : Binary64) : x.significand < 2 * exponentUnit := by
  have hfraction : x.fraction < exponentUnit := Nat.mod_lt _ exponentUnit_pos
  unfold significand
  split <;> omega

/-- The magnitude grows with the bits. -/
theorem scaled_lt_scaled (h : x.magnitude < y.magnitude) : x.scaled < y.scaled := by
  have hx := Nat.div_add_mod x.magnitude exponentUnit
  have hy := Nat.div_add_mod y.magnitude exponentUnit
  rw [← exponentField, ← fraction] at hx hy
  have hfield : x.exponentField ≤ y.exponentField := Nat.div_le_div_right h.le
  unfold scaled
  simp only [Nat.pow_eq]
  rcases hfield.lt_or_eq with hlt | heq
  · -- The largest significand of one unit is below the least one of the next.
    have hfull : exponentUnit ≤ y.significand := by
      rw [significand, if_neg (by omega)]
      omega
    refine lt_of_lt_of_le ?_ (Nat.mul_le_mul_right _ hfull)
    rcases Nat.eq_zero_or_pos x.exponentField with hzero | hpos
    · have hfraction : x.fraction < exponentUnit := Nat.mod_lt _ exponentUnit_pos
      rw [significand, if_pos hzero, unitExponent, hzero, Nat.pow_zero, Nat.mul_one]
      exact lt_of_lt_of_le hfraction (Nat.le_mul_of_pos_right _ (Nat.two_pow_pos _))
    · calc x.significand * 2 ^ x.unitExponent
          < 2 * exponentUnit * 2 ^ x.unitExponent :=
            Nat.mul_lt_mul_of_pos_right x.significand_lt (Nat.two_pow_pos _)
        _ = exponentUnit * 2 ^ (x.unitExponent + 1) := by ring
        _ ≤ exponentUnit * 2 ^ y.unitExponent := by
            refine Nat.mul_le_mul_left _ (Nat.pow_le_pow_right (by decide) ?_)
            unfold unitExponent
            omega
  · rw [heq] at hx
    have hless : x.significand < y.significand := by
      unfold significand
      rw [heq]
      split <;> omega
    rw [unitExponent, unitExponent, heq]
    exact Nat.mul_lt_mul_of_pos_right hless (Nat.two_pow_pos _)

theorem scaled_lt_scaled_iff : x.scaled < y.scaled ↔ x.magnitude < y.magnitude := by
  refine ⟨fun h => ?_, scaled_lt_scaled⟩
  rcases lt_trichotomy x.magnitude y.magnitude with hlt | heq | hgt
  · exact hlt
  · simp [scaled, significand, unitExponent, exponentField, fraction, heq] at h
  · exact absurd (scaled_lt_scaled hgt) h.not_gt

theorem scaled_pos_iff : 0 < x.scaled ↔ 0 < x.magnitude := by
  have hzero : (zero false).scaled = 0 := by decide
  have hmagnitude : (zero false).magnitude = 0 := by decide
  have hlt := @scaled_lt_scaled_iff (zero false) x
  rwa [hzero, hmagnitude] at hlt

theorem rank_lt_rank_iff : x.rank < y.rank ↔ x.units < y.units := by
  have hxy := @scaled_lt_scaled_iff x y
  have hyx := @scaled_lt_scaled_iff y x
  have hx := @scaled_pos_iff x
  have hy := @scaled_pos_iff y
  -- Signs decide, unless both numbers are zeros; with one sign the magnitudes do.
  unfold rank units
  split <;> split <;> omega

theorem isNaN_of_isFinite (h : x.isFinite = true) : x.isNaN = false := by
  rw [isFinite, decide_eq_true_eq] at h
  rw [isNaN, decide_eq_false_iff_not]
  exact h.not_gt

theorem rank_eq_of_equal {x y : Binary64} (h : x.equal y = true) : x.rank = y.rank := by
  simp only [equal, compare] at h
  split at h
  · exact absurd h (by decide)
  · simpa using h

theorem isZero_iff_rank {x : Binary64} : x.isZero = true ↔ x.rank = 0 := by
  rw [isZero, beq_iff_eq, rank]
  split <;> omega

/-- Numbers that are equal are the same, zeros apart. -/
theorem eq_of_equal {x y : Binary64} (h : x.equal y = true) (hzero : x.isZero = false) :
    x = y := by
  have hrank := rank_eq_of_equal h
  have hmagnitude : x.magnitude ≠ 0 := by simpa [isZero] using hzero
  -- A rank other than zero has a sign.
  have hparts : x.isNegative = y.isNegative ∧ x.magnitude = y.magnitude := by
    revert hrank
    unfold rank
    cases x.isNegative <;> cases y.isNegative <;>
      simp only [if_true, Bool.false_eq_true, Bool.true_eq_false, if_false, true_and, false_and] <;>
      omega
  rw [← ofMagnitude_magnitude x, ← ofMagnitude_magnitude y, hparts.1, hparts.2]

theorem equal_of_isZero {x y : Binary64} (hx : x.isZero = true) (hy : y.isZero = true) :
    x.equal y = true := by
  have hnumber {z : Binary64} (h : z.isZero = true) : z.isNaN = false := by
    rw [isZero, beq_iff_eq] at h
    simp [isNaN, h]
  simp [equal, compare, hnumber hx, hnumber hy, isZero_iff_rank.mp hx, isZero_iff_rank.mp hy]

/-- **Comparing numbers compares what they denote.** -/
theorem compare_eq_toRat (hx : x.isFinite = true) (hy : y.isFinite = true) :
    x.compare y = some (Ord.compare x.toRat y.toRat) := by
  have hlt (x y : Binary64) : x.rank < y.rank ↔ x.toRat < y.toRat := by
    rw [rank_lt_rank_iff, ← not_le, ← toRat_le_toRat_iff, not_le]
  rw [compare, isNaN_of_isFinite hx, isNaN_of_isFinite hy]
  exact congrArg some (compare_eq_compare (hlt x y) (hlt y x))

/-! ## Rounding -/

theorem roundHalfEven_mono {m n : Nat} (h : m ≤ n) (den : Nat) :
    roundHalfEven m den ≤ roundHalfEven n den := by
  have hm := Nat.div_add_mod m den
  have hn := Nat.div_add_mod n den
  have hquotient : m / den ≤ n / den := Nat.div_le_div_right h
  unfold roundHalfEven
  dsimp only
  rcases hquotient.lt_or_eq with hlt | heq
  · -- Up from the one is at most down from the other.
    split <;> split <;> omega
  · rw [heq] at hm ⊢
    split <;> split <;> omega

/-- A multiple of the denominator is not rounded. -/
theorem roundHalfEven_mul {den : Nat} (hden : 0 < den) (n : Nat) :
    roundHalfEven (n * den) den = n := by
  simp [roundHalfEven, Nat.mul_div_cancel n hden, hden]

/-- **What a whole number of units is rounded to**: 53 bits of it. -/
def nearest (n : Nat) : Nat := roundSignificand n 1 * 2 ^ roundExponent n 1

theorem log2_mono {m n : Nat} (h : m ≤ n) : m.log2 ≤ n.log2 := by
  rcases Nat.eq_zero_or_pos m with rfl | hpos
  · simp
  · exact (Nat.le_log2 (by omega)).mpr (le_trans (Nat.log2_self_le hpos.ne') h)

/-- **Rounding keeps the order.** -/
theorem nearest_mono {m n : Nat} (h : m ≤ n) : nearest m ≤ nearest n := by
  have hexponent : roundExponent m 1 ≤ roundExponent n 1 := by
    unfold roundExponent
    rw [Nat.div_one, Nat.div_one]
    exact Nat.sub_le_sub_right (log2_mono h) 52
  unfold nearest
  rcases hexponent.lt_or_eq with hlt | heq
  · -- The larger number fills its significand, which a carry of the smaller one just reaches.
    calc roundSignificand m 1 * 2 ^ roundExponent m 1
        ≤ 2 * exponentUnit * 2 ^ roundExponent m 1 :=
          Nat.mul_le_mul_right _ (roundSignificand_le Nat.one_pos)
      _ = exponentUnit * 2 ^ (roundExponent m 1 + 1) := by ring
      _ ≤ exponentUnit * 2 ^ roundExponent n 1 :=
          Nat.mul_le_mul_left _ (Nat.pow_le_pow_right (by decide) hlt)
      _ ≤ roundSignificand n 1 * 2 ^ roundExponent n 1 :=
          Nat.mul_le_mul_right _ (exponentUnit_le_roundSignificand Nat.one_pos (by omega))
  · unfold roundSignificand
    rw [heq]
    exact Nat.mul_le_mul_right _ (roundHalfEven_mono h _)

/-- **What can be represented is not rounded.** -/
theorem nearest_mul {significand : Nat} (h : significand < 2 * exponentUnit) (exponent : Nat) :
    nearest (significand * 2 ^ exponent) = significand * 2 ^ exponent := by
  rcases Nat.eq_zero_or_pos significand with rfl | hpos
  · rw [Nat.zero_mul]
    decide
  -- The unit of the rounding divides the number, so that there is no rest.
  have hexponent : roundExponent (significand * 2 ^ exponent) 1 ≤ exponent := by
    have hbits : (significand * 2 ^ exponent).log2 < 53 + exponent := by
      rw [Nat.log2_lt (Nat.mul_pos hpos (Nat.two_pow_pos _)).ne', Nat.pow_add]
      exact Nat.mul_lt_mul_of_pos_right h (Nat.two_pow_pos _)
    rw [roundExponent, Nat.div_one]
    omega
  unfold nearest roundSignificand
  generalize roundExponent (significand * 2 ^ exponent) 1 = e at hexponent
  obtain ⟨d, rfl⟩ := Nat.exists_eq_add_of_le hexponent
  rw [Nat.pow_add, Nat.one_mul, Nat.mul_comm (2 ^ e), ← Nat.mul_assoc,
    roundHalfEven_mul (Nat.two_pow_pos e)]

/-- **Rounding a whole number of units**, which keeps its sign. -/
def nearestInt (n : Int) : Int := if n < 0 then -nearest n.natAbs else nearest n.natAbs

theorem nearestInt_mono {m n : Int} (h : m ≤ n) : nearestInt m ≤ nearestInt n := by
  unfold nearestInt
  split <;> split
  · have hle := @nearest_mono n.natAbs m.natAbs (by omega)
    omega
  · omega
  · omega
  · have hle := @nearest_mono m.natAbs n.natAbs (by omega)
    omega

theorem nearestInt_eq_self {n : Int} (h : nearest n.natAbs = n.natAbs) : nearestInt n = n := by
  unfold nearestInt
  rw [h]
  split <;> omega

/-- **Numbers are not rounded.** -/
theorem nearestInt_units (x : Binary64) : nearestInt x.units = x.units := by
  refine nearestInt_eq_self ?_
  have hscaled : x.units.natAbs = x.scaled := by
    unfold units
    split <;> simp
  rw [hscaled]
  exact nearest_mul x.significand_lt x.unitExponent

/-! ## Whole numbers -/

theorem isNegative_ofMagnitude (negative : Bool) {m : Nat} (h : m < signBit) :
    (ofMagnitude negative m).isNegative = negative := by
  simp only [ofMagnitude, isNegative, signBit, UInt64.toNat_ofNat'] at h ⊢
  cases negative <;> simp <;> omega

theorem isNegative_ofInt (n : Int) : (ofInt n).isNegative = decide (n < 0) :=
  isNegative_ofMagnitude _ (lt_of_le_of_lt (Nat.min_le_left _ _) (by decide))

variable {m n : Int}

theorem units_ofInt (h : n.natAbs ≤ 10 ^ 308) :
    (ofInt n).units = nearestInt (n * unitsInOne) := by
  have hscaled : (ofInt n).scaled = nearest (n.natAbs * unitsInOne) :=
    scaled_ofRatio Nat.one_pos (isFinite_ofInt_of_natAbs_le h)
  have hsign : n * unitsInOne < 0 ↔ n < 0 := by
    rw [← not_le, ← not_le, mul_nonneg_iff_of_pos_right (Int.natCast_pos.mpr unitsInOne_pos)]
  rw [units, isNegative_ofInt, hscaled, nearestInt, Int.natAbs_mul, Int.natAbs_natCast]
  simp only [decide_eq_true_eq, hsign]

/-- **Rounding keeps the order of whole numbers.** -/
theorem toRat_ofInt_mono (hm : m.natAbs ≤ 10 ^ 308) (hn : n.natAbs ≤ 10 ^ 308) (h : m ≤ n) :
    (ofInt m).toRat ≤ (ofInt n).toRat := by
  rw [toRat_le_toRat_iff, units_ofInt hm, units_ofInt hn]
  exact nearestInt_mono (Int.mul_le_mul_of_nonneg_right h (Int.natCast_nonneg _))

/-- **Rounding up stops at every number** on the way. -/
theorem toRat_ofInt_le (hn : n.natAbs ≤ 10 ^ 308) (h : (n : ℚ) ≤ x.toRat) :
    (ofInt n).toRat ≤ x.toRat := by
  rw [toRat_le_toRat_iff, units_ofInt hn, ← nearestInt_units x]
  exact nearestInt_mono (intCast_le_toRat_iff.mp h)

/-- **Rounding down stops at every number** on the way. -/
theorem le_toRat_ofInt (hn : n.natAbs ≤ 10 ^ 308) (h : x.toRat ≤ n) :
    x.toRat ≤ (ofInt n).toRat := by
  rw [toRat_le_toRat_iff, units_ofInt hn, ← nearestInt_units x]
  exact nearestInt_mono (toRat_le_intCast_iff.mp h)

/-- A whole number is not rounded if its bits are those of a significand with zeros behind. -/
theorem toRat_ofInt_of_eq_mul {significand exponent : Nat} (hn : n.natAbs ≤ 10 ^ 308)
    (hsignificand : significand < 2 * exponentUnit) (h : n.natAbs = significand * 2 ^ exponent) :
    (ofInt n).toRat = n := by
  have hunits : (ofInt n).units = n * unitsInOne := by
    rw [units_ofInt hn]
    refine nearestInt_eq_self ?_
    rw [Int.natAbs_mul, Int.natAbs_natCast, h]
    unfold unitsInOne
    generalize 1074 = k
    rw [Nat.pow_eq, Nat.mul_assoc, ← Nat.pow_add]
    exact nearest_mul hsignificand _
  exact le_antisymm (toRat_le_intCast_iff.mpr hunits.le) (intCast_le_toRat_iff.mpr hunits.ge)

/-- **Whole numbers up to `2⁵³` are not rounded.** -/
theorem toRat_ofInt_eq (h : n.natAbs ≤ 2 ^ 53) : (ofInt n).toRat = n := by
  have hrange : 2 ^ 53 ≤ 10 ^ 308 := by decide +kernel
  rcases h.lt_or_eq with hlt | heq
  · have hmul : n.natAbs = n.natAbs * 2 ^ 0 := (Nat.mul_one _).symm
    exact toRat_ofInt_of_eq_mul (le_trans h hrange) hlt hmul
  · -- A power of two itself, which has a smaller significand.
    have hmul : n.natAbs = 1 * 2 ^ 53 := heq.trans (Nat.one_mul _).symm
    exact toRat_ofInt_of_eq_mul (le_trans h hrange) (by decide) hmul

/-- A whole number from `2⁶³` on that a number denotes is a multiple of `2¹¹`. -/
theorem dvd_of_toRat_eq {n : Nat} (hlow : 2 ^ 63 ≤ n) (h : x.toRat = n) : 2 ^ 11 ∣ n := by
  have hle : x.toRat ≤ ((n : Int) : ℚ) := by simpa using h.le
  have hge : ((n : Int) : ℚ) ≤ x.toRat := by simpa using h.ge
  have hunits : x.units = n * unitsInOne :=
    le_antisymm (toRat_le_intCast_iff.mp hle) (intCast_le_toRat_iff.mp hge)
  have hscaled : x.significand * 2 ^ x.unitExponent = n * unitsInOne := by
    have hx : x.scaled = x.significand * 2 ^ x.unitExponent := rfl
    unfold units at hunits
    split at hunits <;> omega
  have hsignificand : x.significand < 2 ^ 53 := x.significand_lt
  unfold unitsInOne at hscaled
  generalize x.unitExponent = e at hscaled
  generalize 1074 = k at hscaled
  rw [Nat.pow_eq] at hscaled
  -- The significand has 53 bits only, so that there are zeros behind it.
  have hzeros : k + 11 ≤ e := by
    by_contra hless
    have hpow : 2 ^ e ≤ 2 ^ (k + 10) := Nat.pow_le_pow_right (by decide) (by omega)
    have : n * 2 ^ k < n * 2 ^ k := calc
      n * 2 ^ k = x.significand * 2 ^ e := hscaled.symm
      _ < 2 ^ 53 * 2 ^ e := Nat.mul_lt_mul_of_pos_right hsignificand (Nat.two_pow_pos _)
      _ ≤ 2 ^ 53 * 2 ^ (k + 10) := Nat.mul_le_mul_left _ hpow
      _ = 2 ^ 63 * 2 ^ k := by ring
      _ ≤ n * 2 ^ k := Nat.mul_le_mul_right _ hlow
    exact lt_irrefl _ this
  obtain ⟨d, rfl⟩ := Nat.exists_eq_add_of_le hzeros
  refine ⟨x.significand * 2 ^ d, Nat.eq_of_mul_eq_mul_right (Nat.two_pow_pos k) ?_⟩
  rw [← hscaled]
  ring

/-- **Whole numbers of 64 bits beyond the signed range** are not rounded if they are multiples of
`2¹¹`, and no others. -/
theorem toRat_ofInt_eq_iff_dvd {n : Nat} (hlow : 2 ^ 63 ≤ n) (hhigh : n < 2 ^ 64) :
    (ofInt n).toRat = n ↔ 2 ^ 11 ∣ n := by
  refine ⟨dvd_of_toRat_eq hlow, fun ⟨m, hm⟩ => ?_⟩
  have hrange : 2 ^ 64 ≤ 10 ^ 308 := by decide +kernel
  have hsignificand : m < 2 ^ 53 := by omega
  have hmul : (n : Int).natAbs = m * 2 ^ 11 := by omega
  simpa using toRat_ofInt_of_eq_mul (n := n) (by omega) hsignificand hmul

end Binary64

end ScreenedQuery
