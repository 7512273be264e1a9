import ScreenedQuery.Number.Shortest
import ScreenedQuery.Proofs.Number.Digits
import ScreenedQuery.Proofs.Number.Rounding

/-!
# Shortest decimals

Seventeen digits suffice for every finite number: the spacing of the decimals with so many digits is
less than the interval of reals that round to it. So the shortest decimal is one of at most
seventeen digits that lies in the interval.

## Main definitions

* `Binary64.Spread`: what is known of the interval of a number
* `Binary64.Covers`: whether a decimal lies in the interval of a number
* `Decimal.Normal`: a decimal with digits, the first of which is not zero

## Main results

* `Binary64.isSome_shortestWith_seventeen`: seventeen digits suffice
* `Binary64.exists_shortest`: the shortest decimal of a number, and where it lies
* `Binary64.shortest_spec`: the same by its digits
-/

namespace ScreenedQuery

namespace Binary64

variable {x : Binary64}

/-! ## The interval -/

/-- **The interval of a number**: it reaches farther up than down, and its lower part is not too
small for the value. -/
structure Spread (x : Binary64) (below : Nat) : Prop where
  bounds : x.bounds = (4 * x.scaled - below, 4 * x.scaled, 4 * x.scaled + 2 * 2 ^ x.unitExponent)
  below_pos : 0 < below
  below_lt : below < 4 * x.scaled
  below_le : below ≤ 2 * 2 ^ x.unitExponent
  le_below : 4 * x.scaled ≤ 4 * exponentUnit * below

/-- **The interval of a number that is not zero.** -/
theorem exists_spread (h : x.isZero = false) : ∃ below, Spread x below := by
  have hunit : 0 < 2 ^ x.unitExponent := Nat.two_pow_pos _
  have hfraction : x.fraction < exponentUnit := Nat.mod_lt _ exponentUnit_pos
  have hbits := Nat.div_add_mod x.magnitude exponentUnit
  have hmagnitude : x.magnitude ≠ 0 := by simpa [isZero] using h
  rw [← exponentField, ← fraction] at hbits
  have hscaled : x.scaled = x.significand * 2 ^ x.unitExponent := rfl
  -- Below a power of two the numbers lie twice as dense, so that the lower part is half as long.
  by_cases hpower : x.fraction = 0 ∧ 1 < x.exponentField
  · have hsignificand : x.significand = exponentUnit := by
      rw [significand, if_neg (by omega), hpower.1, Nat.add_zero]
    refine ⟨2 ^ x.unitExponent, ?_, hunit, ?_, by omega, ?_⟩
    · simp only [bounds, hpower, and_self, if_true, Nat.pow_eq]
    · rw [hscaled, hsignificand, ← Nat.mul_assoc]
      exact (Nat.lt_mul_iff_one_lt_left hunit).mpr (by decide)
    · rw [hscaled, hsignificand, Nat.mul_assoc]
  · have hsignificand : 0 < x.significand ∧ x.significand ≤ 2 * exponentUnit := by
      unfold significand
      split
      · rename_i hfield
        rw [hfield, Nat.mul_zero, Nat.zero_add] at hbits
        omega
      · omega
    refine ⟨2 * 2 ^ x.unitExponent, ?_, by omega, ?_, Nat.le_refl _, ?_⟩
    · simp only [bounds, hpower, if_false, Nat.pow_eq]
    · rw [hscaled, ← Nat.mul_assoc]
      exact Nat.mul_lt_mul_of_pos_right (by omega) hunit
    · calc 4 * x.scaled = 4 * (x.significand * 2 ^ x.unitExponent) := by rw [hscaled]
        _ ≤ 4 * (2 * exponentUnit * 2 ^ x.unitExponent) := by gcongr; exact hsignificand.2
        _ = 4 * exponentUnit * (2 * 2 ^ x.unitExponent) := by ring

/-! ## The place of the point -/

/-- What a value is multiplied with, so that the decimals with an exponent are whole multiples of
`decimalUnit`. -/
def decimalScale (exponent : Int) : Nat := Nat.pow 10 (-exponent).toNat

/-- The distance of the decimals with an exponent, in units of `2⁻¹⁰⁷⁶` times `decimalScale`. -/
def decimalUnit (exponent : Int) : Nat := 4 * unitsInOne * Nat.pow 10 exponent.toNat

theorem decimalScale_pos (exponent : Int) : 0 < decimalScale exponent := Nat.pow_pos (by decide)

theorem decimalUnit_pos (exponent : Int) : 0 < decimalUnit exponent :=
  Nat.mul_pos (Nat.mul_pos (by decide) unitsInOne_pos) (Nat.pow_pos (by decide))

variable {value : Nat}

/-- So many digits stand in front of the point, and no fewer. -/
theorem exists_decimalPoint_eq (h : 4 ≤ value) : ∃ length : Nat, decimalPoint value = length - 339 ∧
    10 ^ length * (4 * unitsInOne) ≤ value * 10 ^ 340 ∧
      value * 10 ^ 340 < 10 ^ (length + 1) * (4 * unitsInOne) := by
  have hunits : 0 < 4 * unitsInOne := Nat.mul_pos (by decide) unitsInOne_pos
  generalize hwhole : value * 10 ^ 340 / (4 * unitsInOne) = whole
  obtain ⟨length, hlength⟩ := Nat.exists_eq_succ_of_ne_zero
    (Nat.ne_of_gt (@Nat.length_toDigits_pos 10 whole))
  have hlt : whole < 10 ^ (length + 1) :=
    (Nat.length_toDigits_le_iff (by decide) (Nat.succ_pos length)).mp hlength.le
  have hle : 10 ^ length ≤ whole := by
    cases length with
    | zero =>
      rw [← hwhole]
      refine (Nat.le_div_iff_mul_le hunits).mpr ?_
      calc 10 ^ 0 * (4 * unitsInOne) ≤ 4 * 10 ^ 340 := by decide +kernel
        _ ≤ value * 10 ^ 340 := Nat.mul_le_mul_right _ h
    | succ length =>
      by_contra hlt
      have := (Nat.length_toDigits_le_iff (by decide) (Nat.succ_pos length)).mpr (not_le.mp hlt)
      omega
  refine ⟨length, ?_, ?_, ?_⟩
  · unfold decimalPoint
    simp only [Nat.pow_eq, hwhole, hlength]
    omega
  · rw [← hwhole] at hle
    exact (Nat.le_div_iff_mul_le hunits).mp hle
  · rw [← hwhole] at hlt
    exact (Nat.div_lt_iff_lt_mul hunits).mp hlt

/-- **A value has as many digits as it is asked for**, counted from its first one. -/
theorem decimalPoint_bounds (h : 4 ≤ value) (count : Nat) {exponent : Int}
    (hexponent : exponent = decimalPoint value - (count + 1 : Nat)) :
    10 ^ count * decimalUnit exponent ≤ value * decimalScale exponent ∧
      value * decimalScale exponent < 10 ^ (count + 1) * decimalUnit exponent := by
  obtain ⟨length, hlength, hle, hlt⟩ := exists_decimalPoint_eq h
  have hplaces : (-exponent).toNat + length = exponent.toNat + 340 + count := by omega
  simp only [decimalUnit, decimalScale, Nat.pow_eq]
  -- One of the two powers is one; with both as variables the sign of the exponent plays no part.
  generalize (-exponent).toNat = a at hplaces
  generalize exponent.toNat = b at hplaces
  generalize hten : 340 = n at hle hlt hplaces
  have hpos : 0 < 10 ^ n := Nat.pow_pos (by decide)
  have hpow : 10 ^ b * 10 ^ n * 10 ^ count = 10 ^ a * 10 ^ length := by
    rw [← Nat.pow_add, ← Nat.pow_add, ← Nat.pow_add, hplaces]
  constructor
  · refine Nat.le_of_mul_le_mul_right ?_ hpos
    calc 10 ^ count * (4 * unitsInOne * 10 ^ b) * 10 ^ n
        = 10 ^ b * 10 ^ n * 10 ^ count * (4 * unitsInOne) := by ring
      _ = 10 ^ length * (4 * unitsInOne) * 10 ^ a := by rw [hpow]; ring
      _ ≤ value * 10 ^ n * 10 ^ a := Nat.mul_le_mul_right _ hle
      _ = value * 10 ^ a * 10 ^ n := by ring
  · refine Nat.lt_of_mul_lt_mul_right (a := 10 ^ n) ?_
    calc value * 10 ^ a * 10 ^ n = value * 10 ^ n * 10 ^ a := by ring
      _ < 10 ^ (length + 1) * (4 * unitsInOne) * 10 ^ a :=
        Nat.mul_lt_mul_of_pos_right hlt (Nat.pow_pos (by decide))
      _ = 10 * (10 ^ b * 10 ^ n * 10 ^ count) * (4 * unitsInOne) := by rw [hpow]; ring
      _ = 10 ^ (count + 1) * (4 * unitsInOne * 10 ^ b) * 10 ^ n := by ring

/-! ## Decimals of a length -/

/-- Whether the lower one of two neighbours that are equally near is taken. -/
def isDown (down : Nat) : Tie → Bool
  | .up => false
  | .even => down % 2 == 0

/-- The nearer of the two neighbours of a value among the multiples of a unit. -/
def nearer (tie : Tie) (value unit : Nat) : Nat :=
  if 2 * (value % unit) < unit || (2 * (value % unit) == unit && isDown (value / unit) tie) then
    value / unit
  else value / unit + 1

/-- The other one of the two neighbours. -/
def farther (tie : Tie) (value unit : Nat) : Nat :=
  if nearer tie value unit = value / unit then value / unit + 1 else value / unit

/-- Whether a decimal rounds to a number: the ends of the interval do if the significand is
even. -/
def inside (x : Binary64) (n : Nat) (exponent : Int) : Bool :=
  if x.significand % 2 == 0 then
    x.bounds.1 * decimalScale exponent ≤ n * decimalUnit exponent &&
      n * decimalUnit exponent ≤ x.bounds.2.2 * decimalScale exponent
  else
    x.bounds.1 * decimalScale exponent < n * decimalUnit exponent &&
      n * decimalUnit exponent < x.bounds.2.2 * decimalScale exponent

theorem shortestWith_eq (x : Binary64) (tie : Tie) (point : Int) (count : Nat) :
    x.shortestWith tie point count =
      let exponent := point - count
      let first := nearer tie (x.bounds.2.1 * decimalScale exponent) (decimalUnit exponent)
      let second := farther tie (x.bounds.2.1 * decimalScale exponent) (decimalUnit exponent)
      if x.inside first exponent then some (Decimal.ofScaled first exponent)
      else if x.inside second exponent then some (Decimal.ofScaled second exponent)
      else none := rfl

theorem nearer_le (tie : Tie) (value unit : Nat) : nearer tie value unit ≤ value / unit + 1 := by
  unfold nearer
  split <;> omega

theorem farther_le (tie : Tie) (value unit : Nat) : farther tie value unit ≤ value / unit + 1 := by
  unfold farther
  split <;> omega

/-- The nearer neighbour is at most half a unit away. -/
theorem nearer_bounds (tie : Tie) (value : Nat) {unit : Nat} (hunit : 0 < unit) :
    2 * (nearer tie value unit * unit) ≤ 2 * value + unit ∧
      2 * value ≤ 2 * (nearer tie value unit * unit) + unit := by
  have hvalue := Nat.div_add_mod value unit
  have hrest := Nat.mod_lt value hunit
  rw [Nat.mul_comm unit] at hvalue
  unfold nearer
  split
  · rename_i hnear
    rw [Bool.or_eq_true, Bool.and_eq_true, decide_eq_true_eq, beq_iff_eq] at hnear
    omega
  · rename_i hfar
    rw [Bool.or_eq_true, not_or, decide_eq_true_eq] at hfar
    rw [Nat.add_mul, Nat.one_mul]
    omega

/-- **A decimal in the interval of a number**, or at one of its ends. -/
def Covers (x : Binary64) (n : Nat) (exponent : Int) : Prop :=
  x.bounds.1 * decimalScale exponent ≤ n * decimalUnit exponent ∧
    n * decimalUnit exponent ≤ x.bounds.2.2 * decimalScale exponent

theorem covers_of_inside {n : Nat} {exponent : Int} (h : x.inside n exponent = true) :
    x.Covers n exponent := by
  unfold inside at h
  split at h <;> rw [Bool.and_eq_true, decide_eq_true_eq, decide_eq_true_eq] at h
  · exact h
  · exact ⟨h.1.le, h.2.le⟩

/-- What is found for a length is a decimal of this length in the interval. -/
theorem of_shortestWith {tie : Tie} {point : Int} {count : Nat} {d : Decimal}
    (h : x.shortestWith tie point count = some d) :
    ∃ n, d = Decimal.ofScaled n (point - count) ∧ x.inside n (point - count) = true ∧
      n ≤ x.bounds.2.1 * decimalScale (point - count) / decimalUnit (point - count) + 1 := by
  rw [shortestWith_eq] at h
  dsimp only at h
  split at h
  · exact ⟨_, (Option.some.inj h).symm, ‹_›, nearer_le _ _ _⟩
  · split at h
    · exact ⟨_, (Option.some.inj h).symm, ‹_›, farther_le _ _ _⟩
    · simp at h

/-- **A length suffices** when the decimals of this length are less than the interval apart. -/
theorem isSome_shortestWith {below : Nat} (hspread : x.Spread below) (tie : Tie) {point : Int}
    {count : Nat} (h : decimalUnit (point - count) < 2 * (below * decimalScale (point - count))) :
    (x.shortestWith tie point count).isSome := by
  rw [shortestWith_eq]
  generalize point - count = exponent at h ⊢
  have hnear := nearer_bounds tie (x.bounds.2.1 * decimalScale exponent) (decimalUnit_pos exponent)
  have habove := Nat.mul_le_mul_right (decimalScale exponent) hspread.below_le
  have hbelow := Nat.mul_le_mul_right (decimalScale exponent) hspread.below_lt.le
  -- It is the nearer one of the two neighbours that lies in the interval.
  have hinside : x.inside (nearer tie (x.bounds.2.1 * decimalScale exponent)
      (decimalUnit exponent)) exponent = true := by
    unfold inside
    simp only [hspread.bounds, Nat.sub_mul, Nat.add_mul] at hnear ⊢
    split <;> rw [Bool.and_eq_true, decide_eq_true_eq, decide_eq_true_eq] <;> omega
  simp [hinside]

/-! ## The shortest decimal -/

theorem isSome_shortestWith_seventeen {below : Nat} (hspread : x.Spread below) (tie : Tie) :
    (x.shortestWith tie (decimalPoint x.bounds.2.1) 17).isSome := by
  refine isSome_shortestWith hspread tie ?_
  have hbelow := hspread.below_lt
  have hle := (@decimalPoint_bounds x.bounds.2.1 (by rw [hspread.bounds]; dsimp only; omega)
    16 _ rfl).1
  generalize decimalPoint x.bounds.2.1 - (16 + 1 : Nat) = exponent at hle ⊢
  have hpos := Nat.mul_pos hspread.below_pos (decimalScale_pos exponent)
  have hvalue : x.bounds.2.1 * decimalScale exponent ≤
      4 * exponentUnit * (below * decimalScale exponent) := by
    rw [hspread.bounds, ← Nat.mul_assoc]
    exact Nat.mul_le_mul_right _ hspread.le_below
  -- The digits hold more than the 54 bits between the value and the lower part.
  simp only [exponentUnit] at hvalue
  omega

/-- **The shortest decimal of a number that is not zero**: it has at most seventeen digits, is not
zero and lies in the interval of the number. -/
theorem exists_shortest (h : x.isZero = false) (tie : Tie) : ∃ n exponent,
    x.shortest tie = Decimal.ofScaled n exponent ∧ 0 < n ∧ n ≤ 10 ^ 17 ∧
      x.inside n exponent = true := by
  obtain ⟨below, hspread⟩ := exists_spread h
  have hbelow := hspread.below_lt
  cases hfound : (List.range' 1 17).findSome? (x.shortestWith tie (decimalPoint x.bounds.2.1)) with
  | none =>
    have hsome := isSome_shortestWith_seventeen hspread tie
    rw [List.findSome?_eq_none_iff.mp hfound 17 (by decide)] at hsome
    exact absurd hsome (by decide)
  | some d =>
    obtain ⟨count, hcount, hd⟩ := List.exists_of_findSome?_eq_some hfound
    rw [List.mem_range'_1] at hcount
    obtain ⟨n, rfl, hinside, hn⟩ := of_shortestWith hd
    refine ⟨n, _, ?_, ?_, ?_, hinside⟩
    · simp only [shortest, hfound, Option.getD_some]
    · have hlow := Nat.mul_pos (Nat.sub_pos_of_lt hbelow)
        (decimalScale_pos (decimalPoint x.bounds.2.1 - count))
      have hle := (covers_of_inside hinside).1
      rw [hspread.bounds] at hle
      exact Nat.pos_of_mul_pos_right (lt_of_lt_of_le hlow hle)
    · have hlt := (@decimalPoint_bounds x.bounds.2.1 (by rw [hspread.bounds]; dsimp only; omega)
        (count - 1) (decimalPoint x.bounds.2.1 - count) (by omega)).2
      rw [Nat.sub_add_cancel hcount.1] at hlt
      have hdiv := (Nat.div_lt_iff_lt_mul (decimalUnit_pos _)).mpr hlt
      have hpow : 10 ^ count ≤ 10 ^ 17 := Nat.pow_le_pow_right (by decide) (by omega)
      omega

end Binary64

/-! ## Digits of decimals -/

namespace Decimal

/-- A decimal with digits, the first of which is not zero. -/
structure Normal (d : Decimal) : Prop where
  ne_nil : d.digits ≠ []
  head : d.digits.head? ≠ some '0'
  digit : ∀ c ∈ d.digits, c.isDigit = true

/-- The zeros at the end of the digits of a decimal are left out. -/
theorem exists_zeros (n : Nat) (exponent : Int) : ∃ zeros,
    Nat.toDigits 10 n = (ofScaled n exponent).digits ++ List.replicate zeros '0' := by
  have hzeros : ∀ c ∈ (Nat.toDigits 10 n).reverse.takeWhile (· == '0'), c = '0' :=
    fun c hc => by simpa using List.mem_takeWhile_imp hc
  have hreverse := congrArg List.reverse
    (List.takeWhile_append_dropWhile (p := (· == '0')) (l := (Nat.toDigits 10 n).reverse))
  rw [List.eq_replicate_of_mem hzeros, List.reverse_append, List.reverse_reverse,
    List.reverse_replicate] at hreverse
  exact ⟨_, hreverse.symm⟩

/-- **The digits of a decimal**: the zeros at their end are left out, and move the point. -/
theorem normal_ofScaled {n : Nat} (h : 0 < n) (exponent : Int) :
    (ofScaled n exponent).Normal ∧ ∃ zeros : Nat,
      n = Number.digitsValue (ofScaled n exponent).digits * 10 ^ zeros ∧
        (ofScaled n exponent).point - (ofScaled n exponent).digits.length = exponent + zeros := by
  obtain ⟨zeros, hdigits⟩ := exists_zeros n exponent
  have hpoint : (ofScaled n exponent).point = exponent + (Nat.toDigits 10 n).length := rfl
  have hvalue := Number.digitsValue_toDigits n
  have hhead := Number.head_toDigits_ne_zero h
  have hdigit := fun c => @Number.isDigit_of_mem_toDigits n c
  rw [hdigits] at hpoint hvalue hhead hdigit
  rw [Number.digitsValue_append_zeros] at hvalue
  have hne : (ofScaled n exponent).digits ≠ [] := by
    intro hnil
    rw [hnil, Number.digitsValue_nil, Nat.zero_mul] at hvalue
    omega
  refine ⟨⟨hne, ?_, fun c hc => hdigit c (List.mem_append_left _ hc)⟩, zeros, hvalue.symm, ?_⟩
  · rwa [List.head?_append, List.head?_eq_some_head hne, Option.some_or,
      ← List.head?_eq_some_head hne] at hhead
  · rw [hpoint, List.length_append, List.length_replicate]
    omega

end Decimal

/-- **The shortest decimal of a number that is not zero**, by its digits: they denote a number of at
most seventeen digits, and the decimal is not above the interval of the number. -/
theorem Binary64.shortest_spec {x : Binary64} (h : x.isZero = false) (tie : Tie) :
    let d := x.shortest tie
    d.Normal ∧ 0 < Number.digitsValue d.digits ∧ Number.digitsValue d.digits ≤ 10 ^ 17 ∧
      ∀ exponent : Nat, d.point - d.digits.length = exponent →
        Number.digitsValue d.digits * 10 ^ exponent * (4 * unitsInOne) ≤
          4 * x.scaled + 2 * 2 ^ x.unitExponent := by
  obtain ⟨below, hspread⟩ := exists_spread h
  obtain ⟨n, scale, hshortest, hpos, hle, hinside⟩ := exists_shortest h tie
  have hhigh := (covers_of_inside hinside).2
  obtain ⟨hnormal, zeros, hvalue, hpoint⟩ := Decimal.normal_ofScaled hpos scale
  intro d
  rw [← hshortest] at hnormal hvalue hpoint
  change n = Number.digitsValue d.digits * 10 ^ zeros at hvalue
  change d.point - d.digits.length = scale + zeros at hpoint
  generalize Number.digitsValue d.digits = value at hvalue ⊢
  have hzeros : 0 < 10 ^ zeros := Nat.pow_pos (by decide)
  refine ⟨hnormal, ?_, ?_, fun exponent hexponent => ?_⟩
  · rw [hvalue] at hpos
    exact Nat.pos_of_mul_pos_right hpos
  · exact le_trans (hvalue ▸ Nat.le_mul_of_pos_right value hzeros) hle
  · rw [hspread.bounds, decimalUnit, decimalScale, Nat.pow_eq, Nat.pow_eq, hvalue] at hhigh
    dsimp only at hhigh
    -- The zeros that were left out have moved from the digits to the exponent.
    have hplaces : zeros + scale.toNat = exponent + (-scale).toNat := by omega
    have hpow : 10 ^ zeros * 10 ^ scale.toNat = 10 ^ exponent * 10 ^ (-scale).toNat := by
      rw [← Nat.pow_add, ← Nat.pow_add, hplaces]
    refine Nat.le_of_mul_le_mul_right ?_ (Nat.pow_pos (by decide) : 0 < 10 ^ (-scale).toNat)
    calc value * 10 ^ exponent * (4 * unitsInOne) * 10 ^ (-scale).toNat
        = value * (10 ^ exponent * 10 ^ (-scale).toNat) * (4 * unitsInOne) := by ring
      _ = value * 10 ^ zeros * (4 * unitsInOne * 10 ^ scale.toNat) := by rw [← hpow]; ring
      _ ≤ (4 * x.scaled + 2 * 2 ^ x.unitExponent) * 10 ^ (-scale).toNat := hhigh

end ScreenedQuery
