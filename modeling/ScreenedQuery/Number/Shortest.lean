import ScreenedQuery.Number.Binary64

/-!
# Shortest decimal digits

Of the decimal fractions that round to a given binary64 number, the ones with the fewest digits,
and of these the nearest, is the usual text of that number.

## Main definitions

* `Tie`: which of two equally near decimals is taken
* `Decimal`: digits behind a decimal point, and where the point goes
* `Binary64.bounds`: the interval of reals that round to a number
* `Binary64.shortest`: the shortest decimal in that interval
-/

namespace ScreenedQuery

/-- Which of two equally near decimals a text takes. -/
inductive Tie
  /-- The one that is farther from zero. -/
  | up
  /-- The one whose last digit is even. -/
  | even

/-- The decimal fraction `0.d₁d₂… · 10 ^ point`, without zeros at the end. -/
structure Decimal where
  /-- The digits `d₁d₂…`. -/
  digits : List Char
  /-- The power of ten: how many of the digits stand before the point. -/
  point : Int
  deriving DecidableEq

/-- The decimal `count · 10 ^ exponent`. -/
def Decimal.ofScaled (count : Nat) (exponent : Int) : Decimal :=
  let digits := Nat.toDigits 10 count
  ⟨(digits.reverse.dropWhile (· == '0')).reverse, exponent + digits.length⟩

namespace Binary64

/-- The interval of reals that round to a number, in units of `2⁻¹⁰⁷⁶`: its least member, the
number itself and its greatest member. The gap below a power of two is half as wide. -/
def bounds (x : Binary64) : Nat × Nat × Nat :=
  let value := 4 * x.scaled
  let unit := Nat.pow 2 x.unitExponent
  let below := if x.fraction = 0 ∧ 1 < x.exponentField then unit else 2 * unit
  (value - below, value, value + 2 * unit)

/-- How many decimal digits stand before the point of `value · 2⁻¹⁰⁷⁶`; negative for zeros that
follow the point. -/
def decimalPoint (value : Nat) : Int :=
  (Nat.toDigits 10 (value * Nat.pow 10 340 / (4 * unitsInOne))).length - 340

/-- The nearer of the two neighbours of `x` among the decimals with `count` digits, of those
that round to `x`. -/
def shortestWith (x : Binary64) (tie : Tie) (point : Int) (count : Nat) : Option Decimal :=
  let (low, value, high) := x.bounds
  let exponent := point - count
  let up := Nat.pow 10 (-exponent).toNat
  let unit := 4 * unitsInOne * Nat.pow 10 exponent.toNat
  let closed := x.significand % 2 == 0
  let inside (n : Nat) : Bool :=
    if closed then low * up ≤ n * unit && n * unit ≤ high * up
    else low * up < n * unit && n * unit < high * up
  let down := value * up / unit
  let rest := 2 * (value * up % unit)
  let tieDown := match tie with
    | .up => false
    | .even => down % 2 == 0
  let nearer := if rest < unit || (rest == unit && tieDown) then down else down + 1
  let farther := if nearer = down then down + 1 else down
  if inside nearer then some (Decimal.ofScaled nearer exponent)
  else if inside farther then some (Decimal.ofScaled farther exponent)
  else none

/-- **The shortest decimal that rounds to `x`**, for a finite `x` that is not zero: seventeen
digits always suffice. -/
def shortest (x : Binary64) (tie : Tie) : Decimal :=
  let point := decimalPoint x.bounds.2.1
  ((List.range' 1 17).findSome? (x.shortestWith tie point)).getD ⟨[], 0⟩

end Binary64

end ScreenedQuery
