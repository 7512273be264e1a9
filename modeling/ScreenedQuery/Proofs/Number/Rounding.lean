import Mathlib.Tactic.Ring
import ScreenedQuery.Number.Binary64

/-!
# Rounding to binary64

A fraction is rounded to a whole multiple of a power of two: the significand, of at most 53 bits,
times the unit. From the error of at most half a unit follow bounds for what numbers are rounded
to, and when the result is finite.

## Main definitions

* `Binary64.largestUnit`: the unit of the largest numbers
* `Binary64.roundExponent`, `Binary64.roundSignificand`: what a fraction is rounded to

## Main results

* `Binary64.isFinite_ofRatio`: fractions within the range are rounded to finite numbers
* `Binary64.scaled_ofRatio`: the magnitude of what a fraction is rounded to
* `Binary64.isFinite_div`: dividing by what is not below one keeps a number finite
* `Binary64.scaled_ofInt`: whole numbers are rounded with a small relative error
* `Binary64.isFinite_mul_ofInt`: when the product of two rounded whole numbers is finite
-/

namespace ScreenedQuery.Binary64

theorem exponentUnit_pos : 0 < exponentUnit := by decide

/-- The unit of the significands of the largest numbers, in units of `2⁻¹⁰⁷⁴`. -/
def largestUnit : Nat := Nat.pow 2 2045

-- The exponents are replaced by variables, so that no such power is ever evaluated.
theorem le_largestUnit {n : Nat} (h : n ≤ 2045) : 2 ^ n ≤ largestUnit := by
  unfold largestUnit
  generalize 2045 = k at h ⊢
  exact Nat.pow_le_pow_right (by decide) h

theorem unitsInOne_le {n : Nat} (h : 1074 ≤ n) : unitsInOne ≤ 2 ^ n := by
  unfold unitsInOne
  generalize 1074 = k at h ⊢
  exact Nat.pow_le_pow_right (by decide) h

theorem le_log2_of_unitsInOne_le {n : Nat} (h : unitsInOne ≤ n) : 1074 ≤ n.log2 := by
  unfold unitsInOne at h
  generalize 1074 = k at h ⊢
  exact (Nat.le_log2 (Nat.ne_of_gt (lt_of_lt_of_le (Nat.two_pow_pos k) h))).mpr h

theorem unitsInOne_pos : 0 < unitsInOne := by
  unfold unitsInOne
  generalize 1074 = k
  exact Nat.two_pow_pos k

theorem largestUnit_pos : 0 < largestUnit :=
  lt_of_lt_of_le Nat.one_pos (le_largestUnit (Nat.zero_le _))

/-! ## Magnitudes -/

theorem magnitude_ofMagnitude (negative : Bool) {m : Nat} (h : m < signBit) :
    (ofMagnitude negative m).magnitude = m := by
  simp only [ofMagnitude, magnitude, signBit, UInt64.toNat_ofNat'] at h ⊢
  cases negative <;> simp <;> omega

/-- A number is given by its sign and its magnitude. -/
theorem ofMagnitude_magnitude (x : Binary64) : ofMagnitude x.isNegative x.magnitude = x := by
  obtain ⟨bits⟩ := x
  have hlt : bits.toNat < 2 * signBit := bits.toNat_lt
  have hsign := Nat.div_add_mod bits.toNat signBit
  unfold ofMagnitude isNegative magnitude
  congr 1
  by_cases hnegative : signBit ≤ bits.toNat
  · rw [Nat.div_eq_of_lt_le (k := 1) (by omega) (by omega)] at hsign
    simp only [hnegative, decide_true, ite_true]
    rw [show signBit + bits.toNat % signBit = bits.toNat by omega, UInt64.ofNat_toNat]
  · simp only [hnegative, decide_false]
    rw [Nat.mod_eq_of_lt (by omega)]
    simp

/-- The negative of a finite number is finite. -/
theorem isFinite_neg {x : Binary64} (h : x.isFinite = true) : x.neg.isFinite = true := by
  have hlt : x.magnitude < signBit := Nat.mod_lt _ (by decide)
  rw [isFinite, neg, magnitude_ofMagnitude _ hlt]
  exact h

/-- The magnitude of a number in units, from its bits. -/
theorem scaled_of_magnitude {x : Binary64} {exponent significand : Nat}
    (h : x.magnitude = exponent * exponentUnit + significand)
    (hle : significand ≤ 2 * exponentUnit) (hnormal : 0 < exponent → exponentUnit ≤ significand) :
    x.scaled = significand * 2 ^ exponent := by
  have hunit := exponentUnit_pos
  rcases Nat.lt_or_ge significand exponentUnit with hlt | hge
  · obtain rfl : exponent = 0 := by omega
    rw [Nat.zero_mul, Nat.zero_add] at h
    have hfield : x.exponentField = 0 := by rw [exponentField, h, Nat.div_eq_of_lt hlt]
    have hfraction : x.fraction = significand := by rw [fraction, h, Nat.mod_eq_of_lt hlt]
    simp [scaled, Binary64.significand, unitExponent, hfield, hfraction]
  · obtain ⟨fraction, rfl⟩ := Nat.exists_eq_add_of_le hge
    rcases Nat.lt_or_ge fraction exponentUnit with hlt | hge
    · have hbits : x.magnitude = exponentUnit * (exponent + 1) + fraction := by rw [h]; ring
      have hfield : x.exponentField = exponent + 1 := by
        rw [exponentField, hbits, Nat.mul_add_div hunit, Nat.div_eq_of_lt hlt, Nat.add_zero]
      have hfraction : x.fraction = fraction := by
        rw [Binary64.fraction, hbits, Nat.mul_add_mod, Nat.mod_eq_of_lt hlt]
      simp [scaled, Binary64.significand, unitExponent, hfield, hfraction]
    · -- All bits are set and one is carried: the next power of two.
      obtain rfl : fraction = exponentUnit := by omega
      have hbits : x.magnitude = exponentUnit * (exponent + 2) := by rw [h]; ring
      have hfield : x.exponentField = exponent + 2 := by
        rw [exponentField, hbits, Nat.mul_div_cancel_left _ hunit]
      have hfraction : x.fraction = 0 := by rw [Binary64.fraction, hbits, Nat.mul_mod_right]
      simp only [scaled, Binary64.significand, unitExponent, hfield, hfraction, Nat.pow_eq]
      rw [if_neg (by omega), show exponent + 2 - 1 = exponent + 1 from rfl, Nat.pow_succ]
      ring

theorem two_pow_unitExponent_le {x : Binary64} (h : x.magnitude < infinityMagnitude) :
    2 ^ x.unitExponent ≤ largestUnit := by
  have hfield : x.exponentField < 2047 := (Nat.div_lt_iff_lt_mul exponentUnit_pos).mpr h
  exact le_largestUnit (by rw [unitExponent]; omega)

/-- The magnitude of a finite number, when all larger ones up to the infinities are left out. -/
theorem scaled_le {x : Binary64} {n : Nat} (hn : n < exponentUnit)
    (h : x.magnitude + n < infinityMagnitude) :
    x.scaled ≤ (2 * exponentUnit - 1 - n) * largestUnit := by
  have hbits := Nat.div_add_mod x.magnitude exponentUnit
  have hfraction : x.fraction < exponentUnit := Nat.mod_lt _ exponentUnit_pos
  rw [← exponentField, ← fraction] at hbits
  have hsignificand : x.significand ≤ exponentUnit + x.fraction := by
    unfold significand
    split <;> omega
  rw [show x.scaled = x.significand * 2 ^ x.unitExponent from rfl]
  rcases Nat.lt_trichotomy x.exponentField 2046 with hlt | heq | hgt
  · -- A smaller unit makes up for all bits.
    have hunit : 2 * 2 ^ x.unitExponent ≤ largestUnit := by
      rw [← pow_succ']
      exact le_largestUnit (by rw [unitExponent]; omega)
    calc x.significand * 2 ^ x.unitExponent
        ≤ (2 * (2 * exponentUnit - 1 - n)) * 2 ^ x.unitExponent :=
          Nat.mul_le_mul_right _ (by omega)
      _ = (2 * exponentUnit - 1 - n) * (2 * 2 ^ x.unitExponent) := by ring
      _ ≤ (2 * exponentUnit - 1 - n) * largestUnit := Nat.mul_le_mul_left _ hunit
  · rw [heq] at hbits
    simp only [infinityMagnitude] at h
    exact Nat.mul_le_mul (by omega) (le_largestUnit (by rw [unitExponent, heq]))
  · have hover := Nat.mul_le_mul_left exponentUnit hgt
    simp only [infinityMagnitude] at h
    omega

/-! ## Fractions -/

/-- The whole number nearest to a fraction is no farther from it than one half. -/
theorem roundHalfEven_bounds {den : Nat} (hden : 0 < den) (num : Nat) :
    num / den ≤ roundHalfEven num den ∧ den * (2 * roundHalfEven num den) ≤ 2 * num + den := by
  have hnum := Nat.div_add_mod num den
  have hrest := Nat.mod_lt num hden
  unfold roundHalfEven
  dsimp only
  split
  · refine ⟨Nat.le_refl _, ?_⟩
    rw [Nat.mul_left_comm]
    omega
  · refine ⟨Nat.le_succ _, ?_⟩
    rw [Nat.mul_left_comm, Nat.mul_add]
    omega

/-- The exponent of the unit to which a fraction is rounded. -/
def roundExponent (num den : Nat) : Nat := (num / den).log2 - 52

/-- The significand that a fraction is rounded to. -/
def roundSignificand (num den : Nat) : Nat :=
  roundHalfEven num (den * 2 ^ roundExponent num den)

theorem magnitude_ofRatio (negative : Bool) (num den : Nat) :
    (ofRatio negative num den).magnitude = min infinityMagnitude
      (roundExponent (num * unitsInOne) den * exponentUnit +
        roundSignificand (num * unitsInOne) den) := by
  rw [ofRatio, magnitude_ofMagnitude]
  · rfl
  · exact lt_of_le_of_lt (Nat.min_le_left _ _) (by decide)

variable {num den : Nat}

/-- What a fraction is rounded to is at most half a unit above it. -/
theorem mul_roundSignificand_le (hden : 0 < den) :
    2 * (den * 2 ^ roundExponent num den) * roundSignificand num den ≤
      2 * num + den * 2 ^ roundExponent num den := by
  have hround := (roundHalfEven_bounds (Nat.mul_pos hden
    (Nat.two_pow_pos (roundExponent num den))) num).2
  rwa [Nat.mul_left_comm, ← Nat.mul_assoc] at hround

/-- A significand that is below a bound. -/
theorem roundSignificand_lt (hden : 0 < den) {n : Nat}
    (h : 2 * num + den * 2 ^ roundExponent num den <
      2 * (den * 2 ^ roundExponent num den) * n) :
    roundSignificand num den < n := by
  by_contra hle
  rw [not_lt] at hle
  have hround := @mul_roundSignificand_le num den hden
  have hmul := Nat.mul_le_mul_left (2 * (den * 2 ^ roundExponent num den)) hle
  omega

theorem roundSignificand_le (hden : 0 < den) : roundSignificand num den ≤ 2 * exponentUnit := by
  have hlog : num / den < 2 ^ roundExponent num den * (2 * exponentUnit) := by
    rw [show 2 * exponentUnit = 2 ^ 53 from rfl, ← Nat.pow_add]
    refine lt_of_lt_of_le Nat.lt_log2_self (Nat.pow_le_pow_right (by decide) ?_)
    rw [roundExponent]
    omega
  have hnum : num < den * 2 ^ roundExponent num den * (2 * exponentUnit) := by
    rw [Nat.mul_assoc, Nat.mul_comm]
    exact (Nat.div_lt_iff_lt_mul hden).mp hlog
  refine Nat.le_of_lt_succ (roundSignificand_lt hden ?_)
  have hunit := Nat.mul_pos hden (Nat.two_pow_pos (roundExponent num den))
  rw [Nat.succ_eq_add_one, Nat.mul_add, Nat.mul_one, Nat.mul_assoc]
  omega

/-- A fraction that is not rounded to the least unit fills the significand. -/
theorem exponentUnit_mul_le (h : 0 < roundExponent num den) :
    exponentUnit * 2 ^ roundExponent num den ≤ num / den := by
  have hlog : (num / den).log2 = 52 + roundExponent num den := by
    rw [roundExponent] at h ⊢
    omega
  rw [show exponentUnit = 2 ^ 52 from rfl, ← Nat.pow_add, ← hlog]
  refine Nat.log2_self_le fun hzero => ?_
  rw [hzero, Nat.log2_zero] at hlog
  omega

theorem exponentUnit_le_roundSignificand (hden : 0 < den) (h : 0 < roundExponent num den) :
    exponentUnit ≤ roundSignificand num den := by
  have hround := (roundHalfEven_bounds (Nat.mul_pos hden
    (Nat.two_pow_pos (roundExponent num den))) num).1
  refine le_trans ?_ hround
  rw [← Nat.div_div_eq_div_mul]
  exact (Nat.le_div_iff_mul_le (Nat.two_pow_pos _)).mpr (exponentUnit_mul_le h)

/-- The magnitude of what a fraction is rounded to. -/
theorem scaled_ofRatio {negative : Bool} (hden : 0 < den)
    (h : (ofRatio negative num den).isFinite = true) :
    (ofRatio negative num den).scaled = roundSignificand (num * unitsInOne) den *
      2 ^ roundExponent (num * unitsInOne) den := by
  rw [isFinite, decide_eq_true_eq, magnitude_ofRatio, min_lt_iff] at h
  refine scaled_of_magnitude ?_ (roundSignificand_le hden) (exponentUnit_le_roundSignificand hden)
  rw [magnitude_ofRatio, Nat.min_eq_right]
  exact (h.resolve_left (lt_irrefl _)).le

/-! ## Finite results -/

/-- The bits of a fraction that is below a power of two by more than half a unit. -/
theorem round_lt (hden : 0 < den) {k : Nat}
    (h : 2 * num < den * 2 ^ k * (4 * exponentUnit - 1)) :
    roundExponent num den * exponentUnit + roundSignificand num den < (k + 2) * exponentUnit := by
  have hunit := exponentUnit_pos
  have hsignificand := @roundSignificand_le num den hden
  rcases Nat.lt_trichotomy (roundExponent num den) k with hlt | heq | hgt
  · -- With a smaller unit even the carry stays below.
    have hexponent := Nat.mul_le_mul_right exponentUnit (Nat.succ_le_of_lt hlt)
    rw [Nat.succ_mul] at hexponent
    rw [Nat.add_mul]
    omega
  · -- With this unit the significand must not be carried, for which the half unit is needed.
    have hless : roundSignificand num den < 2 * exponentUnit := by
      have hunits : 2 * (den * 2 ^ k) * (2 * exponentUnit) = den * 2 ^ k * (4 * exponentUnit) := by
        ring
      have hle : den * 2 ^ k ≤ den * 2 ^ k * (4 * exponentUnit) :=
        Nat.le_mul_of_pos_right _ (by omega)
      rw [Nat.mul_sub, Nat.mul_one] at h
      refine roundSignificand_lt hden ?_
      rw [heq, hunits]
      omega
    rw [heq, Nat.add_mul]
    omega
  · -- A larger unit would be one for larger fractions.
    have hfull := exponentUnit_mul_le (Nat.zero_lt_of_lt hgt)
    have hpow : 2 ^ (k + 1) ≤ 2 ^ roundExponent num den := Nat.pow_le_pow_right (by decide) hgt
    have hnum : exponentUnit * 2 ^ (k + 1) * den ≤ num :=
      (Nat.le_div_iff_mul_le hden).mp (le_trans (Nat.mul_le_mul_left _ hpow) hfull)
    have htwice : 2 * (exponentUnit * 2 ^ (k + 1) * den) = den * 2 ^ k * (4 * exponentUnit) := by
      rw [Nat.pow_succ]
      ring
    have hle := Nat.mul_le_mul_left (den * 2 ^ k) (Nat.sub_le (4 * exponentUnit) 1)
    omega

/-- **A fraction within the range is rounded to a finite number**: one that is below `2¹⁰²⁴` by
more than half a unit of the largest number. -/
theorem isFinite_ofRatio (negative : Bool) (hden : 0 < den)
    (h : 2 * (num * unitsInOne) < den * largestUnit * (4 * exponentUnit - 1)) :
    (ofRatio negative num den).isFinite = true := by
  rw [isFinite, magnitude_ofRatio, decide_eq_true_eq]
  refine lt_of_le_of_lt (Nat.min_le_right _ _) ?_
  rw [infinityMagnitude, show 2047 = 2045 + 2 from rfl]
  unfold largestUnit at h
  generalize 2045 = k at h ⊢
  exact round_lt hden h

/-- **A finite number divided by one that is not below one is finite.** -/
theorem isFinite_div {x y : Binary64} (hx : x.isFinite = true) (hy : unitsInOne ≤ y.scaled) :
    (x.div y).isFinite = true := by
  have hunit := exponentUnit_pos
  have hone := unitsInOne_pos
  rw [isFinite, decide_eq_true_eq] at hx
  have hle := @scaled_le x 0 hunit hx
  refine isFinite_ofRatio _ (lt_of_lt_of_le hone hy) ?_
  calc 2 * (x.scaled * unitsInOne)
      ≤ 2 * ((2 * exponentUnit - 1 - 0) * largestUnit * unitsInOne) := by gcongr
    _ = unitsInOne * largestUnit * (2 * (2 * exponentUnit - 1)) := by rw [Nat.sub_zero]; ring
    _ < unitsInOne * largestUnit * (4 * exponentUnit - 1) :=
        Nat.mul_lt_mul_of_pos_left (by omega) (Nat.mul_pos hone largestUnit_pos)
    _ ≤ y.scaled * largestUnit * (4 * exponentUnit - 1) := by gcongr

/-! ## Whole numbers -/

/-- A whole number up to the largest power of ten in the range is rounded to a finite number. -/
theorem isFinite_ofInt_of_natAbs_le {n : Int} (h : n.natAbs ≤ 10 ^ 308) :
    (ofInt n).isFinite = true := by
  refine isFinite_ofRatio _ Nat.one_pos ?_
  calc 2 * (n.natAbs * unitsInOne) ≤ 2 * (10 ^ 308 * unitsInOne) := by gcongr
    _ < 1 * largestUnit * (4 * exponentUnit - 1) := by decide +kernel

theorem isFinite_ofInt {n : Nat} (h : n ≤ 10 ^ 308) : (ofInt n).isFinite = true :=
  isFinite_ofInt_of_natAbs_le (by rwa [Int.natAbs_natCast])

/-- **Whole numbers are rounded with a small relative error**, and not below one. -/
theorem scaled_ofInt {n : Nat} (hpos : 0 < n) (hle : n ≤ 10 ^ 308) :
    unitsInOne ≤ (ofInt n).scaled ∧
      2 * exponentUnit * (ofInt n).scaled ≤ n * unitsInOne * (2 * exponentUnit + 1) := by
  have hscaled : (ofInt n).scaled = roundSignificand (n * unitsInOne) 1 *
      2 ^ roundExponent (n * unitsInOne) 1 := scaled_ofRatio Nat.one_pos (isFinite_ofInt hle)
  rw [hscaled]
  have hone : unitsInOne ≤ n * unitsInOne := Nat.le_mul_of_pos_left _ hpos
  generalize hnum : n * unitsInOne = num at hone
  have hlog := le_log2_of_unitsInOne_le hone
  have hexponent : roundExponent num 1 = num.log2 - 52 := by rw [roundExponent, Nat.div_one]
  have hpositive : 0 < roundExponent num 1 := by omega
  constructor
  · calc unitsInOne ≤ 2 ^ (52 + roundExponent num 1) := unitsInOne_le (by omega)
      _ = exponentUnit * 2 ^ roundExponent num 1 := pow_add _ _ _
      _ ≤ roundSignificand num 1 * 2 ^ roundExponent num 1 :=
        Nat.mul_le_mul_right _ (exponentUnit_le_roundSignificand Nat.one_pos hpositive)
  · have hround := @mul_roundSignificand_le num 1 Nat.one_pos
    have hfull := @exponentUnit_mul_le num 1 hpositive
    rw [Nat.div_one] at hfull
    rw [Nat.one_mul] at hround
    calc 2 * exponentUnit * (roundSignificand num 1 * 2 ^ roundExponent num 1)
        = exponentUnit * (2 * 2 ^ roundExponent num 1 * roundSignificand num 1) := by ring
      _ ≤ exponentUnit * (2 * num + 2 ^ roundExponent num 1) := Nat.mul_le_mul_left _ hround
      _ = 2 * exponentUnit * num + exponentUnit * 2 ^ roundExponent num 1 := by ring
      _ ≤ 2 * exponentUnit * num + num := Nat.add_le_add_left hfull _
      _ = num * (2 * exponentUnit + 1) := by ring

/-- **The product of two whole numbers is finite**, each of them rounded before it is multiplied,
when the exact product stays below the range by a few units of the largest number. -/
theorem isFinite_mul_ofInt {m n : Nat} (hm : 0 < m) (hmle : m ≤ 10 ^ 308) (hn : 0 < n)
    (hnle : n ≤ 10 ^ 308) (h : 2 * (m * n * unitsInOne) ≤ (4 * exponentUnit - 7) * largestUnit) :
    ((ofInt m).mul (ofInt n)).isFinite = true := by
  have hone := unitsInOne_pos
  have hfirst := (scaled_ofInt hm hmle).2
  have hsecond := (scaled_ofInt hn hnle).2
  refine isFinite_ofRatio _ (Nat.mul_pos hone hone) ?_
  generalize (ofInt m).scaled = a at hfirst
  generalize (ofInt n).scaled = b at hsecond
  -- Both factors are compared after they are multiplied with the denominator of the error.
  refine Nat.lt_of_mul_lt_mul_left (a := 2 * exponentUnit * (2 * exponentUnit)) ?_
  calc 2 * exponentUnit * (2 * exponentUnit) * (2 * (a * b * unitsInOne))
      = 2 * unitsInOne * (2 * exponentUnit * a * (2 * exponentUnit * b)) := by ring
    _ ≤ 2 * unitsInOne * (m * unitsInOne * (2 * exponentUnit + 1) *
          (n * unitsInOne * (2 * exponentUnit + 1))) := by gcongr
    _ = unitsInOne * unitsInOne * ((2 * exponentUnit + 1) * (2 * exponentUnit + 1)) *
          (2 * (m * n * unitsInOne)) := by ring
    _ ≤ unitsInOne * unitsInOne * ((2 * exponentUnit + 1) * (2 * exponentUnit + 1)) *
          ((4 * exponentUnit - 7) * largestUnit) := by gcongr
    _ = unitsInOne * unitsInOne * largestUnit * ((2 * exponentUnit + 1) *
          (2 * exponentUnit + 1) * (4 * exponentUnit - 7)) := by ring
    _ < unitsInOne * unitsInOne * largestUnit * (2 * exponentUnit * (2 * exponentUnit) *
          (4 * exponentUnit - 1)) :=
        Nat.mul_lt_mul_of_pos_left (by decide)
          (Nat.mul_pos (Nat.mul_pos hone hone) largestUnit_pos)
    _ = 2 * exponentUnit * (2 * exponentUnit) *
          (unitsInOne * unitsInOne * largestUnit * (4 * exponentUnit - 1)) := by ring

end ScreenedQuery.Binary64
