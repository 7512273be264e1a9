/-!
# Binary64 numbers

A binary64 number is its 64 bits. A finite one is a whole multiple of `2⁻¹⁰⁷⁴`, so that order,
rounding, products and quotients are exact arithmetic on natural numbers.

## Main definitions

* `Binary64`: the 64 bits of a number
* `Binary64.scaled`: the magnitude of a finite number, in units of `2⁻¹⁰⁷⁴`
* `Binary64.compare`: the order of numbers, undefined on what is not a number
* `Binary64.ofRatio`: the nearest number to a fraction, ties to the even one
* `Binary64.ofDecimal`: the nearest number to a decimal fraction

## Main results

* `Binary64.compare_swap`: comparing the other way round reverses the order
* `Binary64.compare_self`: a number equals itself
-/

namespace ScreenedQuery

/-- A binary64 number, given by its 64 bits: sign, eleven bits of exponent, 52 of fraction. -/
structure Binary64 where
  /-- The bits, the sign highest. -/
  bits : UInt64
  deriving DecidableEq, Inhabited

namespace Binary64

def signBit : Nat := 0x8000000000000000

/-- The least exponent bit alone: the bit above the fraction. -/
def exponentUnit : Nat := 0x10000000000000

/-- One, in units of `2⁻¹⁰⁷⁴`. -/
def unitsInOne : Nat := Nat.pow 2 1074

/-- The magnitude of the infinities: all exponent bits set and no fraction. -/
def infinityMagnitude : Nat := 2047 * exponentUnit

/-- Whether the sign bit is set. -/
def isNegative (x : Binary64) : Bool := signBit ≤ x.bits.toNat

/-- The bits without the sign; they grow with the absolute value. -/
def magnitude (x : Binary64) : Nat := x.bits.toNat % signBit

def exponentField (x : Binary64) : Nat := x.magnitude / exponentUnit

def fraction (x : Binary64) : Nat := x.magnitude % exponentUnit

/-- Whether the bits stand for no number. -/
def isNaN (x : Binary64) : Bool := infinityMagnitude < x.magnitude

/-- Whether the number is neither infinite nor undefined. -/
def isFinite (x : Binary64) : Bool := x.magnitude < infinityMagnitude

/-- Whether the number is zero, of either sign. -/
def isZero (x : Binary64) : Bool := x.magnitude == 0

/-- The number with the given sign and magnitude. -/
def ofMagnitude (negative : Bool) (magnitude : Nat) : Binary64 :=
  ⟨UInt64.ofNat (if negative then signBit + magnitude else magnitude)⟩

def zero (negative : Bool) : Binary64 := ofMagnitude negative 0

def infinity (negative : Bool) : Binary64 := ofMagnitude negative infinityMagnitude

/-- What is not a number, with a sign: the leading bit of the fraction is set. -/
def undefined (negative : Bool) : Binary64 :=
  ofMagnitude negative (infinityMagnitude + exponentUnit / 2)

/-- The number with the other sign. -/
def neg (x : Binary64) : Binary64 := ofMagnitude (!x.isNegative) x.magnitude

/-- The significand of a finite number: the fraction, below the leading one that every number
but the smallest ones has. -/
def significand (x : Binary64) : Nat :=
  if x.exponentField = 0 then x.fraction else exponentUnit + x.fraction

/-- The unit of the significand is `2 ^ unitExponent`, in units of `2⁻¹⁰⁷⁴`. -/
def unitExponent (x : Binary64) : Nat := x.exponentField - 1

/-- **The magnitude of a finite number** in units of `2⁻¹⁰⁷⁴`. -/
def scaled (x : Binary64) : Nat := x.significand * Nat.pow 2 x.unitExponent

/-! ## Order -/

/-- A whole number that grows with the number; the two zeros share one. -/
def rank (x : Binary64) : Int := if x.isNegative then -x.magnitude else x.magnitude

/-- **The order of two numbers**, undefined when one of them is not a number. -/
def compare (x y : Binary64) : Option Ordering :=
  if x.isNaN || y.isNaN then none else some (Ord.compare x.rank y.rank)

/-- Equality of numbers: the zeros are equal, and what is not a number differs from itself. -/
def equal (x y : Binary64) : Bool := x.compare y == some .eq

/-- Comparing the other way round reverses the order. -/
theorem compare_swap (x y : Binary64) : y.compare x = (x.compare y).map Ordering.swap := by
  unfold compare
  rw [Bool.or_comm y.isNaN]
  split
  · rfl
  · rw [Option.map_some, Std.OrientedOrd.eq_swap (a := y.rank)]

/-- A number equals itself. -/
theorem compare_self {x : Binary64} (h : x.isNaN = false) : x.compare x = some .eq := by
  simp [compare, h]

/-! ## Rounding -/

/-- The whole number nearest to a fraction, the even one of two that are equally near. -/
def roundHalfEven (num den : Nat) : Nat :=
  let quotient := num / den
  let rest := num % den
  if 2 * rest < den ∨ (2 * rest = den ∧ quotient % 2 = 0) then quotient else quotient + 1

/-- **The number nearest to a fraction**, ties to the even significand. Beyond the largest
number it is infinite. -/
def ofRatio (negative : Bool) (num den : Nat) : Binary64 :=
  let num := num * unitsInOne
  let unitExponent := (num / den).log2 - 52
  let significand := roundHalfEven num (den * Nat.pow 2 unitExponent)
  ofMagnitude negative (min infinityMagnitude (unitExponent * exponentUnit + significand))

/-- The number nearest to a whole number. -/
def ofInt (n : Int) : Binary64 := ofRatio (n < 0) n.natAbs 1

/-- **The number nearest to `digits · 10 ^ exponent`.** Exponents that decide the answer by
themselves are not raised to. -/
def ofDecimal (negative : Bool) (digits : Nat) (exponent : Int) : Binary64 :=
  if digits = 0 then zero negative
  else if 310 ≤ exponent then infinity negative
  else if (digits.log2 : Int) + 1 + 3 * exponent < -1076 then zero negative
  else ofRatio negative (digits * Nat.pow 10 exponent.toNat) (Nat.pow 10 (-exponent).toNat)

/-- The product of two finite numbers, rounded. -/
def mul (x y : Binary64) : Binary64 :=
  ofRatio (x.isNegative != y.isNegative) (x.scaled * y.scaled) (unitsInOne * unitsInOne)

/-- The quotient of a finite number by a finite one that is not zero, rounded. -/
def div (x y : Binary64) : Binary64 :=
  ofRatio (x.isNegative != y.isNegative) x.scaled y.scaled

end Binary64

end ScreenedQuery
