import ScreenedQuery.Number.Literal
import ScreenedQuery.Toml.Basic

/-!
# Numbers and moments in TOML

Numbers may have single underscores between their digits and no needless zeros in front. Moments
are dates, times, or both with an optional offset.

## Main definitions

* `Toml.digits?`: digits without their underscores
* `Toml.ofNumber?`, `Toml.ofMoment?`: the value of a number and of a moment
* `Toml.ofScalar?`: the value of either
-/

namespace ScreenedQuery.Toml

/-! ## Numbers -/

/-- The rest of a row of digits, without its underscores. -/
def moreDigits? (isDigit : Char → Bool) : List Char → Option (List Char)
  | [] => some []
  | '_' :: c :: text =>
    if isDigit c then (moreDigits? isDigit text).map (c :: ·) else none
  | c :: text => if isDigit c then (moreDigits? isDigit text).map (c :: ·) else none

/-- Digits with single underscores between them, without the underscores. -/
def digits? (isDigit : Char → Bool) : List Char → Option (List Char)
  | [] => none
  | c :: text => if isDigit c then (moreDigits? isDigit text).map (c :: ·) else none

/-- The digits of a whole number, which have no needless zero in front. -/
def wholeDigits? (text : List Char) : Option (List Char) :=
  (digits? Char.isDigit text).filter fun digits => digits.head? != some '0' || digits.length == 1

/-- A whole number, if it fits 64 bits. -/
def wholeNumber? (n : Int) : Option Toml :=
  (Number.int64? n).map .integer

/-- The value of a digit of a base up to sixteen. -/
def digitValue (c : Char) : Nat :=
  if c.isDigit then c.toNat - 48 else if c.isUpper then c.toNat - 55 else c.toNat - 87

/-- Whether a character is a digit of a base up to sixteen. -/
def isDigitOf (base : Nat) (c : Char) : Bool :=
  (c.isDigit || ('a' ≤ c && c ≤ 'f') || ('A' ≤ c && c ≤ 'F')) && digitValue c < base

/-- A whole number in another base. -/
def inBase? (base : Nat) (text : List Char) : Option Toml :=
  (digits? (isDigitOf base) text).bind fun digits =>
    wholeNumber? (digits.foldl (fun n c => base * n + digitValue c) 0 : Nat)

/-- The exponent of a number behind its letter. -/
def exponent? (text : List Char) : Option Int :=
  let (negative, text) := Number.splitSign text
  (digits? Char.isDigit text).map fun digits =>
    if negative then -(Number.digitsValue digits : Int) else Number.digitsValue digits

/-- Whether a character starts an exponent. -/
def isExponentMark (c : Char) : Bool := c == 'e' || c == 'E'

/-- A number with a fraction, an exponent or both. What is too large is refused, unless it is
negative. -/
def fractional? (negative : Bool) (text : List Char) : Option Toml := do
  let (mantissa, rest) := text.span (!isExponentMark ·)
  let exponent ← match rest with
    | [] => some 0
    | _ :: rest => exponent? rest
  let (whole, fraction) := mantissa.span (· != '.')
  if fraction.isEmpty && rest.isEmpty then none
  let whole ← wholeDigits? whole
  let fraction ← match fraction with
    | [] => some []
    | _ :: fraction => digits? Char.isDigit fraction
  let x := Binary64.ofDecimal negative (Number.digitsValue (whole ++ fraction))
    (exponent - fraction.length)
  if x = .infinity false then none else some (.float x)

/-- The value of a number behind its sign. -/
def signed? (negative : Bool) (text : List Char) : Option Toml :=
  match text with
  | ['i', 'n', 'f'] => some (.float (.infinity negative))
  | ['n', 'a', 'n'] => some (.float (.undefined negative))
  | text =>
    match wholeDigits? text with
    | some digits =>
      let n : Int := Number.digitsValue digits
      wholeNumber? (if negative then -n else n)
    | none => fractional? negative text

/-- **The value of a number.** -/
def ofNumber? (text : List Char) : Option Toml :=
  match text with
  | '0' :: 'x' :: text => inBase? 16 text
  | '0' :: 'o' :: text => inBase? 8 text
  | '0' :: 'b' :: text => inBase? 2 text
  | text =>
    let (negative, text) := Number.splitSign text
    signed? negative text

/-! ## Moments -/

/-- The number of two digits. -/
def twoDigits? (a b : Char) : Option Nat :=
  if a.isDigit && b.isDigit then some (Number.digitsValue [a, b]) else none

/-- Whether a year has a day more. -/
def isLeapYear (year : Nat) : Bool := year % 4 == 0 && (year % 100 != 0 || year % 400 == 0)

/-- The number of days of a month. -/
def daysOf (year month : Nat) : Nat :=
  if month = 2 then if isLeapYear year then 29 else 28
  else if month = 4 ∨ month = 6 ∨ month = 9 ∨ month = 11 then 30 else 31

/-- The rest of a text behind a date. -/
def afterDate? : List Char → Option (List Char)
  | a :: b :: c :: d :: '-' :: m :: n :: '-' :: p :: q :: rest => do
    let century ← twoDigits? a b
    let year ← twoDigits? c d
    let month ← twoDigits? m n
    let day ← twoDigits? p q
    if 1 ≤ month ∧ month ≤ 12 ∧ 1 ≤ day ∧ day ≤ daysOf (100 * century + year) month then some rest
    else none
  | _ => none

/-- The rest of a text behind hours and minutes. -/
def afterMinutes? : List Char → Option (List Char)
  | a :: b :: ':' :: c :: d :: rest => do
    let hour ← twoDigits? a b
    let minute ← twoDigits? c d
    if hour < 24 ∧ minute < 60 then some rest else none
  | _ => none

/-- The rest of a text behind a time. A minute may have a second more. -/
def afterTime? (text : List Char) : Option (List Char) := do
  match ← afterMinutes? text with
  | ':' :: a :: b :: rest =>
    let second ← twoDigits? a b
    if 60 < second then none
    match rest with
    | '.' :: c :: rest => if c.isDigit then some (rest.dropWhile Char.isDigit) else none
    | ['.'] => none
    | rest => some rest
  | _ => none

/-- Whether a text is an offset, or nothing at all. -/
def isOffset : List Char → Bool
  | [] => true
  | ['Z'] | ['z'] => true
  | '+' :: text | '-' :: text => afterMinutes? text == some []
  | _ => false

/-- **The value of a moment.** -/
def ofMoment? (text : List Char) : Option Toml :=
  let valid := match afterDate? text with
    | some [] => true
    | some (mark :: rest) =>
      (mark == 'T' || mark == 't' || mark == ' ') && ((afterTime? rest).map isOffset).getD false
    | none => afterTime? text == some []
  if valid then some (.moment (String.ofList text)) else none

/-- The value of a number or a moment. -/
def ofScalar? (text : List Char) : Option Toml := (ofMoment? text).or (ofNumber? text)

end ScreenedQuery.Toml
