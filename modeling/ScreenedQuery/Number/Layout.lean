import ScreenedQuery.Number.Shortest

/-!
# Layouts of numbers

The digits of a number are the shortest that read back; a layout says where the point goes and
when an exponent is written, and which of two equally near digits is taken.

## Main definitions

* `Decimal.positional`: digits around a point, with no exponent
* `Decimal.scientific`: one digit, a point, the others and an exponent with its sign
* `Binary64.plain`: the text for readers, always positional
* `Binary64.jsonText`: the text in JSON, positional from `10⁻⁵` up to below `10¹⁶`
-/

namespace ScreenedQuery

namespace Decimal

/-- Digits around a point; the point is left out when nothing follows it. -/
def positional (d : Decimal) : List Char :=
  if d.point ≤ 0 then ['0', '.'] ++ List.replicate (-d.point).toNat '0' ++ d.digits
  else
    let whole := d.point.toNat
    if d.digits.length ≤ whole then d.digits ++ List.replicate (whole - d.digits.length) '0'
    else d.digits.take whole ++ '.' :: d.digits.drop whole

/-- Whether the decimal is a whole number. -/
def isWhole (d : Decimal) : Bool := d.digits.length ≤ d.point

/-- One digit, the others behind a point if there are any, and the exponent with its sign. -/
def scientific (d : Decimal) : List Char :=
  let exponent := d.point - 1
  let head := match d.digits with
    | [] => []
    | [first] => [first]
    | first :: rest => first :: '.' :: rest
  head ++ 'e' :: (if exponent < 0 then '-' else '+') :: Nat.toDigits 10 exponent.natAbs

end Decimal

namespace Binary64

/-- The sign of a number in front of a text. -/
def signed (x : Binary64) (text : List Char) : List Char :=
  if x.isNegative then '-' :: text else text

/-- **The text of a number for readers**: positional, with a sign on negative zero. -/
def plain (x : Binary64) : List Char :=
  if x.isNaN then ['N', 'a', 'N']
  else if !x.isFinite then x.signed ['i', 'n', 'f']
  else if x.isZero then x.signed ['0']
  else x.signed (x.shortest .up).positional

/-- **The text of a number in JSON**: positional with at least one digit behind the point when
the absolute value is at least `10⁻⁵` and below `10¹⁶`, else scientific. What is not finite is
written `null`. -/
def jsonText (x : Binary64) : List Char :=
  if !x.isFinite then ['n', 'u', 'l', 'l']
  else if x.isZero then x.signed ['0', '.', '0']
  else
    let d := x.shortest .even
    if -5 < d.point ∧ d.point ≤ 16 then
      x.signed (d.positional ++ if d.isWhole then ['.', '0'] else [])
    else x.signed d.scientific

end Binary64

end ScreenedQuery
