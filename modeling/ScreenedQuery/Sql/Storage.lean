import ScreenedQuery.Number.Literal
import ScreenedQuery.Value.Basic

/-!
# Stored values

A relational store keeps truth values as numbers and knows no number that is undefined. Its values
fall into classes; those of one class are ordered among themselves, numbers by their exact value,
and the classes are ordered one after the other. Conditions have three outcomes.

## Main definitions

* `Sql.stored`: a value as it is stored
* `Sql.order`: the order of stored values
* `Sql.Truth`, `Sql.truth`: the three outcomes of a condition, and the outcome a value stands for
* `Sql.toNumber`: a text that reads as a number, as that number

## Main results

* `Sql.order_int`: whole numbers have their usual order
* `Sql.Truth.and_true`, `Sql.Truth.or_true`: when conditions hold together, or one of them
-/

namespace ScreenedQuery.Sql

/-- **A value as it is stored.** -/
def stored : Value → Value
  | .bool b => .int (if b then 1 else 0)
  | .float x => if x.isNaN then .null else .float x
  | value => value

/-- The class of a stored value. -/
def storageClass : Value → Nat
  | .null => 0
  | .bool _ | .int _ | .float _ => 1
  | .string _ => 2
  | .bytes _ => 3

/-- The exact order of a whole number and a binary64 number. -/
def orderIntFloat (n : Int64) (x : Binary64) : Ordering :=
  if x.isFinite then
    compare (n.toInt * Binary64.unitsInOne) (if x.isNegative then -(x.scaled : Int) else x.scaled)
  else if x.isNegative then .gt else .lt

/-- **The order of stored values**: by class, and within a class numbers by their value, texts by
their code points and bytes by their numbers. -/
def order : Value → Value → Ordering
  | .int a, .int b => compare a.toInt b.toInt
  | .float a, .float b => compare a.rank b.rank
  | .int a, .float b => orderIntFloat a b
  | .float a, .int b => (orderIntFloat b a).swap
  | .string a, .string b => compare a b
  | .bytes a, .bytes b => compare a b
  | a, b => compare (storageClass a) (storageClass b)

/-- Whole numbers have their usual order. -/
@[simp] theorem order_int (a b : Int64) : order (.int a) (.int b) = compare a.toInt b.toInt := rfl

/-! ## Texts as numbers -/

/-- The blanks around a number in a text. -/
def isSpace (c : Char) : Bool := c == ' ' || (9 ≤ c.toNat && c.toNat ≤ 13)

/-- A text that reads as a number, blanks around it left out, as that number; any other value as
it is. -/
def toNumber : Value → Value
  | .string s =>
    let text := ((s.toList.dropWhile isSpace).reverse.dropWhile isSpace).reverse
    match Number.integer? text, Number.decimal? text with
    | some n, _ => .int n
    | none, some x => .float x
    | none, none => .string s
  | value => value

/-- Whether a text starts with a number that is not zero. -/
def startsNonzero (text : List Char) : Bool :=
  let (_, text) := Number.splitSign (text.dropWhile isSpace)
  let (whole, rest) := Number.splitDigits text
  let fraction := match rest with
    | '.' :: rest => (Number.splitDigits rest).1
    | _ => []
  (whole ++ fraction).any (· != '0')

/-! ## Conditions -/

/-- The outcome of a condition: it holds, it does not, or it is unknown. -/
abbrev Truth := Option Bool

/-- Whether two conditions hold together. -/
def Truth.and : Truth → Truth → Truth
  | some false, _ | _, some false => some false
  | some true, some true => some true
  | _, _ => none

/-- Whether one of two conditions holds. -/
def Truth.or : Truth → Truth → Truth
  | some true, _ | _, some true => some true
  | some false, some false => some false
  | _, _ => none

/-- Two conditions hold together when each of them holds. -/
theorem Truth.and_true {a b : Truth} : a.and b = some true ↔ a = some true ∧ b = some true := by
  rcases a with _ | _ | _ <;> rcases b with _ | _ | _ <;> simp [Truth.and]

/-- One of two conditions holds when the first or the second holds. -/
theorem Truth.or_true {a b : Truth} : a.or b = some true ↔ a = some true ∨ b = some true := by
  rcases a with _ | _ | _ <;> rcases b with _ | _ | _ <;> simp [Truth.or]

/-- **The outcome that a value stands for**: null is unknown, and what is not zero holds. -/
def truth : Value → Truth
  | .null => none
  | .bool b => some b
  | .int n => some (n != 0)
  | .float x => some !x.isZero
  | .string s => some (startsNonzero s.toList)
  | .bytes bs => some (startsNonzero (bs.map fun b => Char.ofNat b.toNat))

/-- The value of an outcome. -/
def ofTruth : Truth → Value
  | none => .null
  | some b => .int (if b then 1 else 0)

end ScreenedQuery.Sql
