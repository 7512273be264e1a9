import ScreenedQuery.Json.Basic
import ScreenedQuery.Number.Literal

/-!
# JSON numbers

A number without fraction and exponent is a whole number when it fits 64 bits. Any other number
is read with two roundings: its leading digits, as many as make a whole number of 64 bits, are
rounded to binary64, and the result is multiplied with or divided by a rounded power of ten.

## Main definitions

* `Json.gatherWhole`, `Json.gatherFraction`: the leading digits that fit 64 bits
* `Json.scaleByTen`: multiply with a power of ten
* `Json.readNumber`: a number at the start of a text
-/

namespace ScreenedQuery.Json

open Number (digitValue splitDigits splitSign digitsValue int64?)

/-- The largest whole number of 64 bits. -/
def wordLimit : Nat := UInt64.size - 1

/-- The leading digits that fit 64 bits, as a whole number, and how many digits follow them. -/
def gatherWhole (digits : List Char) : Nat × Nat :=
  digits.foldl (fun (significand, left) c =>
    let longer := 10 * significand + digitValue c
    if left = 0 ∧ longer ≤ wordLimit then (longer, 0) else (significand, left + 1)) (0, 0)

/-- A significand continued with digits of a fraction as long as it fits 64 bits, and how many
digits were used. -/
def gatherFraction (significand : Nat) : List Char → Nat × Nat
  | [] => (significand, 0)
  | c :: digits =>
    let longer := 10 * significand + digitValue c
    if longer ≤ wordLimit then
      let (significand, used) := gatherFraction longer digits
      (significand, used + 1)
    else (significand, 0)

/-- The power of ten nearest to `10 ^ n`, for `n ≤ 308`. -/
def powerOfTen (n : Nat) : Binary64 := Binary64.ofInt (Nat.pow 10 n)

/-- **A number times a power of ten**, with one rounding for each factor of at most `10³⁰⁸`;
none when the product is beyond the range of binary64. -/
def scaleByTen (x : Binary64) (exponent : Int) : Option Binary64 :=
  if exponent < -308 then
    if x.isZero then some x else scaleByTen (x.div (powerOfTen 308)) (exponent + 308)
  else if exponent < 0 then some (x.div (powerOfTen (-exponent).toNat))
  else if x.isZero then some x
  else if 308 < exponent then none
  else some (x.mul (powerOfTen exponent.toNat)) |>.filter Binary64.isFinite
termination_by (-exponent).toNat
decreasing_by omega

/-- The number with a sign, unless it is beyond the range of binary64. -/
def ofScaled (negative : Bool) (significand : Nat) (exponent : Int) : Json :=
  match scaleByTen (Binary64.ofInt significand) exponent with
  | some x => real (if negative then x.neg else x)
  | none => unreadable

/-- The number without fraction and exponent. Negative zero and what does not fit 64 bits are
binary64 numbers. -/
def ofWhole (negative : Bool) (digits : List Char) : Json :=
  let (significand, left) := gatherWhole digits
  if left ≠ 0 then ofScaled negative significand left
  else if !negative then integer significand
  else if significand = 0 ∨ (int64? (-significand)).isNone then real (Binary64.ofInt significand).neg
  else integer (-significand)

/-- The number with a fraction, which may be empty, and an exponent. -/
def ofFraction (negative : Bool) (whole fraction : List Char) (exponent : Int) : Json :=
  let (significand, left) := gatherWhole whole
  let (significand, used) := gatherFraction significand fraction
  ofScaled negative significand (left - used + exponent)

/-- The fraction at the start of a text: nothing, or a point and digits. -/
def readFraction : List Char → Option (Option (List Char) × List Char)
  | '.' :: text =>
    let (digits, rest) := splitDigits text
    if digits.isEmpty then none else some (some digits, rest)
  | text => some (none, text)

/-- The exponent at the start of a text: nothing, or an `e`, an optional sign and digits. -/
def readExponent : List Char → Option (Option Int × List Char)
  | c :: text =>
    if c == 'e' || c == 'E' then
      let (negative, text) := splitSign text
      let (digits, rest) := splitDigits text
      let n : Int := digitsValue digits
      if digits.isEmpty then none else some (some (if negative then -n else n), rest)
    else some (none, c :: text)
  | [] => some (none, [])

/-- The digits of a whole number: no zero in front of others. -/
def isWholeForm : List Char → Bool
  | [] => false
  | ['0'] => true
  | first :: _ => first != '0'

/-- **A number at the start of a text**, and the rest of the text. -/
def readNumber (text : List Char) : Option (Json × List Char) := do
  let (negative, text) := match text with
    | '-' :: text => (true, text)
    | text => (false, text)
  let (whole, text) := splitDigits text
  if !isWholeForm whole then none
  let (fraction, text) ← readFraction text
  let (exponent, text) ← readExponent text
  match fraction, exponent with
  | none, none => some (ofWhole negative whole, text)
  | fraction, exponent =>
    some (ofFraction negative whole (fraction.getD []) (exponent.getD 0), text)

end ScreenedQuery.Json
