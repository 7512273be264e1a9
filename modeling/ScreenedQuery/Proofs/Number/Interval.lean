import ScreenedQuery.Proofs.Number.Order
import ScreenedQuery.Proofs.Number.Shortest

/-!
# Decimals in the interval of a number

What lies in the interval of reals that round to a number is rounded to it. The shortest decimal of
a number lies in its interval, so that reading it gives the number back.

## Main definitions

* `Binary64.Takes`: a fraction that lies in the interval of a number
* `Binary64.TakesDecimal`: the same of a decimal

## Main results

* `Binary64.ofRatio_of_takes`: a fraction in the interval of a number is rounded to the number
* `Binary64.TakesDecimal.ofDecimal_eq`: a decimal in the interval of a number is read as it
* `Binary64.takesDecimal_shortest`: the shortest decimal of a number lies in its interval
-/

namespace ScreenedQuery.Binary64

variable {x : Binary64} {num den : Nat}

/-! ## Where a fraction is rounded to -/

/-- A whole number is the nearest one if it is at most one half away, and even at one half. -/
theorem roundHalfEven_eq {n : Nat} (hden : 0 < den) (hlow : 2 * (n * den) ≤ 2 * num + den)
    (hhigh : 2 * num ≤ 2 * (n * den) + den)
    (heven : 2 * (n * den) = 2 * num + den ∨ 2 * num = 2 * (n * den) + den → n % 2 = 0) :
    roundHalfEven num den = n := by
  have hnum := Nat.div_add_mod num den
  have hrest := Nat.mod_lt num hden
  rw [Nat.mul_comm den] at hnum
  -- The quotient is the number itself, or the one below it.
  rcases Nat.lt_or_ge num (n * den) with hlt | hge
  · obtain ⟨m, rfl⟩ : ∃ m, n = m + 1 := by
      refine Nat.exists_eq_succ_of_ne_zero fun hzero => ?_
      rw [hzero, Nat.zero_mul] at hlt
      omega
    rw [Nat.add_mul, Nat.one_mul] at hlow hhigh heven hlt
    have hquotient : num / den = m := by
      refine Nat.div_eq_of_lt_le (by omega) ?_
      rw [Nat.succ_mul]
      exact hlt
    rw [hquotient] at hnum
    simp only [roundHalfEven, hquotient]
    rw [if_neg (by omega)]
  · have hquotient : num / den = n := by
      refine Nat.div_eq_of_lt_le hge ?_
      rw [Nat.succ_mul]
      omega
    rw [hquotient] at hnum
    simp only [roundHalfEven, hquotient]
    rw [if_pos (by omega)]

/-- The exponent that fits the size of a fraction is the one that it is rounded with. -/
theorem roundExponent_eq {exponent : Nat} (hden : 0 < den)
    (hlow : 0 < exponent → den * 2 ^ exponent * exponentUnit ≤ num)
    (hhigh : num < den * 2 ^ exponent * (2 * exponentUnit)) :
    roundExponent num den = exponent := by
  have hlt : num / den < 2 ^ (exponent + 53) := by
    rw [Nat.div_lt_iff_lt_mul hden, Nat.pow_add, Nat.mul_comm, ← Nat.mul_assoc]
    exact hhigh
  rcases Nat.eq_zero_or_pos exponent with rfl | hpos
  · have hlog : (num / den).log2 ≤ 52 := by
      rcases Nat.eq_zero_or_pos (num / den) with hzero | hpos
      · rw [hzero]
        decide
      · exact Nat.lt_succ_iff.mp ((Nat.log2_lt hpos.ne').mpr hlt)
    rw [roundExponent]
    omega
  · have hle : 2 ^ (exponent + 52) ≤ num / den := by
      rw [Nat.le_div_iff_mul_le hden, Nat.pow_add, Nat.mul_comm, ← Nat.mul_assoc]
      exact hlow hpos
    have hlog : (num / den).log2 = exponent + 52 := by
      refine (Nat.log2_eq_iff (Nat.ne_of_gt (lt_of_lt_of_le (Nat.two_pow_pos _) hle))).mpr ?_
      exact ⟨hle, hlt⟩
    rw [roundExponent, hlog]
    omega

/-- The bits of what a fraction is rounded to, from an exponent that fits its size and a significand
at most one half away. -/
theorem round_eq {exponent significand : Nat} (hden : 0 < den)
    (hlow : 0 < exponent → den * 2 ^ exponent * exponentUnit ≤ num)
    (hhigh : num < den * 2 ^ exponent * (2 * exponentUnit))
    (hbelow : 2 * (significand * (den * 2 ^ exponent)) ≤ 2 * num + den * 2 ^ exponent)
    (habove : 2 * num ≤ 2 * (significand * (den * 2 ^ exponent)) + den * 2 ^ exponent)
    (heven : 2 * (significand * (den * 2 ^ exponent)) = 2 * num + den * 2 ^ exponent ∨
      2 * num = 2 * (significand * (den * 2 ^ exponent)) + den * 2 ^ exponent →
      significand % 2 = 0) :
    roundExponent num den * exponentUnit + roundSignificand num den =
      exponent * exponentUnit + significand := by
  have hexponent := roundExponent_eq hden hlow hhigh
  rw [roundSignificand, hexponent,
    roundHalfEven_eq (Nat.mul_pos hden (Nat.two_pow_pos exponent)) hbelow habove heven]

/-- In the interval of a number, when both of its halves are half a unit wide. -/
theorem round_regular {exponent significand : Nat} (hden : 0 < den)
    (hlt : significand < 2 * exponentUnit) (hfull : 0 < exponent → exponentUnit < significand)
    (hlow : (4 * significand - 2) * (den * 2 ^ exponent) ≤ 4 * num)
    (hhigh : 4 * num ≤ (4 * significand + 2) * (den * 2 ^ exponent))
    (hends : (4 * significand - 2) * (den * 2 ^ exponent) = 4 * num ∨
      4 * num = (4 * significand + 2) * (den * 2 ^ exponent) → significand % 2 = 0) :
    roundExponent num den * exponentUnit + roundSignificand num den =
      exponent * exponentUnit + significand := by
  have hunit := Nat.mul_pos hden (Nat.two_pow_pos exponent)
  rw [Nat.sub_mul, Nat.mul_assoc] at hlow hends
  rw [Nat.add_mul, Nat.mul_assoc] at hhigh hends
  have hless := Nat.mul_le_mul_right (den * 2 ^ exponent) (Nat.succ_le_of_lt hlt)
  refine round_eq hden (fun hpos => ?_) ?_ ?_ ?_ ?_
  · have hmore := Nat.mul_le_mul_right (den * 2 ^ exponent) (Nat.succ_le_of_lt (hfull hpos))
    rw [Nat.succ_mul, Nat.mul_comm exponentUnit] at hmore
    omega
  · rw [Nat.succ_mul, Nat.mul_comm (2 * exponentUnit)] at hless
    omega
  · omega
  · omega
  · intro hend
    exact hends (by omega)

/-- In the interval of a power of two, the lower half of which is half as wide. -/
theorem round_power {exponent : Nat} (hden : 0 < den)
    (hlow : (4 * exponentUnit - 1) * (den * 2 ^ (exponent + 1)) ≤ 4 * num)
    (hhigh : 4 * num ≤ (4 * exponentUnit + 2) * (den * 2 ^ (exponent + 1))) :
    roundExponent num den * exponentUnit + roundSignificand num den =
      (exponent + 1) * exponentUnit + exponentUnit := by
  have hunit : den * 2 ^ (exponent + 1) = 2 * (den * 2 ^ exponent) := by
    rw [Nat.pow_succ]
    ring
  have hhalf := Nat.mul_pos hden (Nat.two_pow_pos exponent)
  have hpower := Nat.le_mul_of_pos_left (den * 2 ^ exponent) exponentUnit_pos
  rw [Nat.sub_mul, Nat.one_mul, Nat.mul_assoc, hunit, Nat.mul_left_comm exponentUnit] at hlow
  rw [Nat.add_mul, Nat.mul_assoc, hunit, Nat.mul_left_comm exponentUnit] at hhigh
  rcases Nat.lt_or_ge num (2 * (exponentUnit * (den * 2 ^ exponent))) with hbelow | habove
  · -- Below the power the unit is the half, and the significand is carried.
    have hround : roundExponent num den * exponentUnit + roundSignificand num den =
        exponent * exponentUnit + 2 * exponentUnit := by
      refine round_eq hden (fun _ => ?_) ?_ ?_ ?_ fun _ => Nat.mul_mod_right 2 exponentUnit
      · rw [Nat.mul_comm]
        omega
      · rwa [Nat.mul_comm, Nat.mul_assoc]
      · rw [Nat.mul_assoc]
        omega
      · rw [Nat.mul_assoc]
        omega
    rw [hround]
    ring
  · refine round_eq hden (fun _ => ?_) ?_ ?_ ?_ fun _ => rfl
    · rwa [hunit, Nat.mul_comm, Nat.mul_left_comm]
    · rw [hunit, Nat.mul_comm, Nat.mul_assoc, Nat.mul_left_comm exponentUnit]
      omega
    · rw [hunit, Nat.mul_left_comm exponentUnit]
      omega
    · rw [hunit, Nat.mul_left_comm exponentUnit]
      omega

/-! ## The interval -/

/-- **A fraction that lies in the interval of a number**; the ends of the interval belong to it if
the significand is even. -/
structure Takes (x : Binary64) (num den : Nat) : Prop where
  low : x.bounds.1 * den ≤ 4 * (num * unitsInOne)
  high : 4 * (num * unitsInOne) ≤ x.bounds.2.2 * den
  ends : x.bounds.1 * den = 4 * (num * unitsInOne) ∨ 4 * (num * unitsInOne) = x.bounds.2.2 * den →
    x.significand % 2 = 0

/-- Whether a fraction lies in the interval depends on its value only. -/
theorem Takes.congr {num' den' : Nat} (hden : 0 < den) (hden' : 0 < den')
    (heq : num * den' = num' * den) (h : x.Takes num den) : x.Takes num' den' := by
  have hvalue : 4 * (num * unitsInOne) * den' = 4 * (num' * unitsInOne) * den := by
    generalize unitsInOne = units
    calc 4 * (num * units) * den' = 4 * (num * den' * units) := by ring
      _ = 4 * (num' * den * units) := by rw [heq]
      _ = 4 * (num' * units) * den := by ring
  refine ⟨?_, ?_, fun hend => h.ends ?_⟩
  · refine Nat.le_of_mul_le_mul_right ?_ hden
    rw [← hvalue, Nat.mul_right_comm]
    exact Nat.mul_le_mul_right den' h.low
  · refine Nat.le_of_mul_le_mul_right ?_ hden
    rw [← hvalue, Nat.mul_right_comm x.bounds.2.2]
    exact Nat.mul_le_mul_right den' h.high
  · -- An end stays an end when both sides are multiplied.
    rcases hend with hend | hend
    · refine .inl (Nat.eq_of_mul_eq_mul_right hden' ?_)
      rw [hvalue, ← hend, Nat.mul_right_comm]
    · refine .inr (Nat.eq_of_mul_eq_mul_right hden' ?_)
      rw [hvalue, hend, Nat.mul_right_comm]

/-- The magnitude of a number, from its significand and the exponent of its unit. -/
theorem magnitude_eq (x : Binary64) :
    x.magnitude = x.unitExponent * exponentUnit + x.significand := by
  have hbits := Nat.div_add_mod x.magnitude exponentUnit
  rw [← exponentField, ← fraction, Nat.mul_comm] at hbits
  unfold unitExponent significand
  split
  · rename_i hfield
    rw [hfield, Nat.zero_mul] at hbits
    rw [hfield]
    omega
  · rename_i hfield
    obtain ⟨field, hsucc⟩ := Nat.exists_eq_succ_of_ne_zero hfield
    rw [hsucc, Nat.succ_mul] at hbits
    rw [hsucc, Nat.succ_sub_one]
    omega

/-- The lower end of the interval of a number. Only a power of two has smaller numbers nearer. -/
theorem bounds_low_cases (x : Binary64) (den : Nat) :
    (x.bounds.1 * den = (4 * x.significand - 2) * (den * 2 ^ x.unitExponent) ∧
        (0 < x.unitExponent → exponentUnit < x.significand)) ∨
      ∃ exponent, x.unitExponent = exponent + 1 ∧ x.significand = exponentUnit ∧
        x.bounds.1 * den = (4 * exponentUnit - 1) * (den * 2 ^ (exponent + 1)) := by
  have hscaled : x.scaled = x.significand * 2 ^ x.unitExponent := rfl
  by_cases hpower : x.fraction = 0 ∧ 1 < x.exponentField
  · have hsignificand : x.significand = exponentUnit := by
      rw [significand, if_neg (by omega), hpower.1, Nat.add_zero]
    obtain ⟨exponent, hexponent⟩ : ∃ exponent, x.unitExponent = exponent + 1 :=
      ⟨x.exponentField - 2, by rw [unitExponent]; omega⟩
    refine .inr ⟨exponent, hexponent, hsignificand, ?_⟩
    simp only [bounds, hpower, and_self, if_true, Nat.pow_eq, hscaled, hsignificand, hexponent,
      Nat.sub_mul, Nat.one_mul, Nat.mul_assoc, Nat.mul_comm den]
  · refine .inl ⟨?_, fun hunit => ?_⟩
    · simp only [bounds, hpower, if_false, Nat.pow_eq, hscaled, Nat.sub_mul, Nat.mul_assoc,
        Nat.mul_comm den]
    · rw [unitExponent] at hunit
      rw [significand, if_neg (by omega)]
      omega

theorem bounds_high (x : Binary64) (den : Nat) :
    x.bounds.2.2 * den = (4 * x.significand + 2) * (den * 2 ^ x.unitExponent) := by
  have hscaled : x.scaled = x.significand * 2 ^ x.unitExponent := rfl
  simp only [bounds, hscaled, Nat.pow_eq]
  ring

/-- **The bits of a number are those of every fraction in its interval.** -/
theorem round_of_takes (hden : 0 < den) (h : x.Takes num den) :
    roundExponent (num * unitsInOne) den * exponentUnit +
        roundSignificand (num * unitsInOne) den = x.magnitude := by
  obtain ⟨hlow, hhigh, hends⟩ := h
  rw [bounds_high] at hhigh hends
  rw [magnitude_eq]
  rcases x.bounds_low_cases den with ⟨hbound, hfull⟩ | ⟨exponent, hexponent, hpower, hbound⟩
  · rw [hbound] at hlow hends
    exact round_regular hden x.significand_lt hfull hlow hhigh hends
  · rw [hbound] at hlow
    rw [hexponent, hpower] at hhigh ⊢
    exact round_power hden hlow hhigh

/-- **A fraction in the interval of a finite number is rounded to this number.** -/
theorem ofRatio_of_takes (hfinite : x.isFinite = true) (hden : 0 < den) (h : x.Takes num den) :
    ofRatio x.isNegative num den = x := by
  rw [isFinite, decide_eq_true_eq] at hfinite
  have hbits := round_of_takes hden h
  have hround : ofRatio x.isNegative num den = ofMagnitude x.isNegative (min infinityMagnitude
      (roundExponent (num * unitsInOne) den * exponentUnit +
        roundSignificand (num * unitsInOne) den)) := rfl
  rw [hround, hbits, Nat.min_eq_right hfinite.le, ofMagnitude_magnitude]

/-! ## Decimals -/

/-- **A decimal that lies in the interval of a number.** -/
def TakesDecimal (x : Binary64) (digits : Nat) (exponent : Int) : Prop :=
  x.Takes (digits * 10 ^ exponent.toNat) (10 ^ (-exponent).toNat)

/-- Zeros behind the digits take from the exponent. -/
theorem takesDecimal_zeros {digits zeros : Nat} {exponent : Int} :
    x.TakesDecimal (digits * 10 ^ zeros) exponent ↔ x.TakesDecimal digits (exponent + zeros) := by
  have hplaces : zeros + exponent.toNat + (-(exponent + zeros)).toNat =
      (exponent + zeros).toNat + (-exponent).toNat := by omega
  have hpow : digits * 10 ^ zeros * 10 ^ exponent.toNat * 10 ^ (-(exponent + zeros)).toNat =
      digits * 10 ^ (exponent + zeros).toNat * 10 ^ (-exponent).toNat := by
    simp only [Nat.mul_assoc, ← Nat.pow_add]
    rw [hplaces]
  have hten (n : Nat) : 0 < 10 ^ n := Nat.pow_pos (by decide)
  exact ⟨.congr (hten _) (hten _) hpow, .congr (hten _) (hten _) hpow.symm⟩

/-- What the search for the shortest decimal tests for. -/
theorem takesDecimal_of_inside {n : Nat} {exponent : Int} (h : x.inside n exponent = true) :
    x.TakesDecimal n exponent := by
  have hvalue : n * decimalUnit exponent = 4 * (n * 10 ^ exponent.toNat * unitsInOne) := by
    unfold decimalUnit
    generalize unitsInOne = units
    rw [Nat.pow_eq]
    ring
  unfold inside at h
  rw [hvalue, decimalScale, Nat.pow_eq] at h
  split at h
  · rename_i heven
    rw [Bool.and_eq_true, decide_eq_true_eq, decide_eq_true_eq] at h
    exact ⟨h.1, h.2, fun _ => by simpa using heven⟩
  · rw [Bool.and_eq_true, decide_eq_true_eq, decide_eq_true_eq] at h
    refine ⟨h.1.le, h.2.le, fun hend => ?_⟩
    rcases hend with hend | hend
    · exact absurd hend h.1.ne
    · exact absurd hend h.2.ne

/-- The shortest decimal of a number that is not zero lies in its interval. -/
theorem takesDecimal_shortest (h : x.isZero = false) (tie : Tie) :
    let d := x.shortest tie
    x.TakesDecimal (Number.digitsValue d.digits) (d.point - d.digits.length) := by
  obtain ⟨n, exponent, hshortest, hpos, -, hinside⟩ := exists_shortest h tie
  obtain ⟨-, zeros, hvalue, hpoint⟩ := Decimal.normal_ofScaled hpos exponent
  have htakes := takesDecimal_of_inside hinside
  rw [hvalue, takesDecimal_zeros, ← hpoint, ← hshortest] at htakes
  exact htakes

theorem bounds_low_pos (h : x.isZero = false) : 0 < x.bounds.1 := by
  obtain ⟨below, hspread⟩ := exists_spread h
  rw [hspread.bounds]
  exact Nat.sub_pos_of_lt hspread.below_lt

theorem bounds_high_le (h : x.isFinite = true) :
    x.bounds.2.2 ≤ 8 * exponentUnit * largestUnit := by
  rw [isFinite, decide_eq_true_eq] at h
  have hhigh := x.bounds_high 1
  rw [Nat.mul_one, Nat.one_mul] at hhigh
  rw [hhigh]
  have hsignificand := x.significand_lt
  exact Nat.mul_le_mul (by omega) (two_pow_unitExponent_le h)

/-- A decimal in the interval of a finite number is not beyond the range. -/
theorem TakesDecimal.exponent_lt {digits : Nat} {exponent : Int} (hfinite : x.isFinite = true)
    (hdigits : 0 < digits) (h : x.TakesDecimal digits exponent) : exponent < 310 := by
  by_contra hge
  rw [not_lt] at hge
  have hhigh := h.high
  rw [Int.toNat_eq_zero.mpr (by omega : -exponent ≤ 0), Nat.pow_zero, Nat.mul_one] at hhigh
  have hpow : 10 ^ 310 ≤ digits * 10 ^ exponent.toNat := by
    refine le_trans ?_ (Nat.le_mul_of_pos_left _ hdigits)
    have hle : 310 ≤ exponent.toNat := by omega
    generalize 310 = n at hle ⊢
    exact Nat.pow_le_pow_right (by decide) hle
  have hmul : 4 * (10 ^ 310 * unitsInOne) ≤ 8 * exponentUnit * largestUnit := by
    calc 4 * (10 ^ 310 * unitsInOne)
        ≤ 4 * (digits * 10 ^ exponent.toNat * unitsInOne) := by gcongr
      _ ≤ 8 * exponentUnit * largestUnit := le_trans hhigh (bounds_high_le hfinite)
  have hover : 8 * exponentUnit * largestUnit < 4 * (10 ^ 310 * unitsInOne) := by decide +kernel
  omega

/-- A decimal in the interval of a number that is not zero is not too small. -/
theorem TakesDecimal.le_log2 {digits : Nat} {exponent : Int} (hzero : x.isZero = false)
    (h : x.TakesDecimal digits exponent) : -1076 ≤ (digits.log2 : Int) + 1 + 3 * exponent := by
  by_contra hlt
  have hunits : 4 * unitsInOne = 2 ^ 1076 := by decide +kernel
  have hlow := h.low
  rw [Int.toNat_eq_zero.mpr (by omega : exponent ≤ 0), Nat.pow_zero, Nat.mul_one,
    Nat.mul_left_comm, hunits] at hlow
  have hten : 10 ^ (-exponent).toNat ≤ digits * 2 ^ 1076 :=
    le_trans (Nat.le_mul_of_pos_left _ (bounds_low_pos hzero)) hlow
  -- Every zero behind the point takes three bits at least.
  have hbits : digits * 2 ^ 1076 < 10 ^ (-exponent).toNat := by
    have hplaces : digits.log2 + 1 + 1076 ≤ 3 * (-exponent).toNat := by omega
    generalize (-exponent).toNat = places at hplaces ⊢
    generalize 1076 = n at hplaces ⊢
    calc digits * 2 ^ n < 2 ^ (digits.log2 + 1) * 2 ^ n :=
          Nat.mul_lt_mul_of_pos_right Nat.lt_log2_self (Nat.two_pow_pos n)
      _ = 2 ^ (digits.log2 + 1 + n) := (Nat.pow_add _ _ _).symm
      _ ≤ 2 ^ (3 * places) := Nat.pow_le_pow_right (by decide) hplaces
      _ = 8 ^ places := by rw [Nat.pow_mul]
      _ ≤ 10 ^ places := Nat.pow_le_pow_left (by decide) places
  omega

/-- **A decimal in the interval of a finite number is read as this number.** -/
theorem TakesDecimal.ofDecimal_eq {digits : Nat} {exponent : Int} (hfinite : x.isFinite = true)
    (hzero : x.isZero = false) (h : x.TakesDecimal digits exponent) :
    ofDecimal x.isNegative digits exponent = x := by
  have hdigits : digits ≠ 0 := by
    rintro rfl
    have hlow := h.low
    rw [Nat.zero_mul, Nat.zero_mul, Nat.mul_zero] at hlow
    have hpos := Nat.mul_pos (bounds_low_pos hzero)
      (Nat.pow_pos (by decide) : 0 < 10 ^ (-exponent).toNat)
    omega
  have hrange := h.exponent_lt hfinite (Nat.pos_of_ne_zero hdigits)
  have hbits := h.le_log2 hzero
  rw [ofDecimal, if_neg hdigits, if_neg (by omega), if_neg (by omega)]
  exact ofRatio_of_takes hfinite (Nat.pow_pos (by decide)) h

end ScreenedQuery.Binary64
