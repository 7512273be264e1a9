import ScreenedQuery.Number.Binary64
import ScreenedQuery.Number.Int64

/-!
# Number literals

Whole numbers and decimal fractions as they are typed: ASCII digits, an optional sign of either
kind, leading zeros allowed, a fraction with a digit on at least one side of its point and an
optional exponent.

## Main definitions

* `digitsValue`: the number that digits denote
* `integer?`: the whole number of 64 bits that a text denotes
* `decimal?`: the binary64 number nearest to what a text denotes

## Main results

* `digitsValue_append_digit`: one more digit is ten times as much and the digit
-/

namespace ScreenedQuery.Number

def digitValue (c : Char) : Nat := c.toNat - 48

/-- The number that a row of digits denotes. -/
def digitsValue (digits : List Char) : Nat :=
  digits.foldl (fun n c => 10 * n + digitValue c) 0

@[simp] theorem digitsValue_nil : digitsValue [] = 0 := rfl

/-- One more digit is ten times as much and the digit. -/
theorem digitsValue_append_digit (digits : List Char) (c : Char) :
    digitsValue (digits ++ [c]) = 10 * digitsValue digits + digitValue c := by
  simp [digitsValue]

/-- A text behind its optional sign, and whether the sign is a minus. -/
def splitSign : List Char → Bool × List Char
  | '-' :: text => (true, text)
  | '+' :: text => (false, text)
  | text => (false, text)

/-- The leading digits of a text, and the rest. -/
def splitDigits (text : List Char) : List Char × List Char :=
  (text.takeWhile Char.isDigit, text.dropWhile Char.isDigit)

/-- A whole number with an optional sign, if it fits 64 bits. -/
def integer? (text : List Char) : Option Int64 :=
  let (negative, digits) := splitSign text
  if digits.isEmpty || !digits.all Char.isDigit then none
  else
    let n : Int := digitsValue digits
    int64? (if negative then -n else n)

/-- The exponent at the end of a number: none, or an `e` and a whole number. -/
def exponent? : List Char → Option Int
  | [] => some 0
  | c :: text =>
    if c == 'e' || c == 'E' then
      let (negative, digits) := splitSign text
      if digits.isEmpty || !digits.all Char.isDigit then none
      else some (if negative then -(digitsValue digits : Int) else digitsValue digits)
    else none

/-- **A decimal number**: an optional sign, digits with an optional point among them, and an
optional exponent. The answer may be infinite. -/
def decimal? (text : List Char) : Option Binary64 :=
  let (negative, text) := splitSign text
  let (whole, rest) := splitDigits text
  let (fraction, rest) := match rest with
    | '.' :: rest => splitDigits rest
    | rest => ([], rest)
  if whole.isEmpty && fraction.isEmpty then none
  else (exponent? rest).map fun exponent =>
    Binary64.ofDecimal negative (digitsValue (whole ++ fraction)) (exponent - fraction.length)

end ScreenedQuery.Number
