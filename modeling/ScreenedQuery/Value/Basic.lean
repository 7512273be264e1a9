import ScreenedQuery.Number.Layout

/-!
# Values

The scalar values that fields hold, filters compare with and queries bind.

## Main definitions

* `Value`: null, truth values, integers of 64 bits, binary64 numbers, text and bytes
* `Value.compare`: the order of two values of comparable kinds
* `Value.same`: equality, in which numbers follow the rules of binary64
* `Value.display`: the text of a value for readers

## Main results

* `Value.compare_null_left`, `Value.compare_null_right`: null compares with nothing
-/

namespace ScreenedQuery

/-- A scalar value. -/
inductive Value
  | null
  | bool (b : Bool)
  | int (n : Int64)
  | float (x : Binary64)
  | string (s : String)
  | bytes (bs : List UInt8)
  deriving DecidableEq, Inhabited

namespace Value

/-- The name of a value's kind. -/
def typeName : Value → String
  | null => "null"
  | bool _ => "bool"
  | int _ => "int"
  | float _ => "float"
  | string _ => "string"
  | bytes _ => "bytes"

/-- **The order of two values.** Integers and floats compare as floats; values of different kinds
otherwise, and null with anything, do not compare. -/
def compare : Value → Value → Option Ordering
  | bool a, bool b => some (Ord.compare a b)
  | int a, int b => some (Ord.compare a.toInt b.toInt)
  | float a, float b => a.compare b
  | int a, float b => (Binary64.ofInt a.toInt).compare b
  | float a, int b => a.compare (Binary64.ofInt b.toInt)
  | string a, string b => some (Ord.compare a b)
  | bytes a, bytes b => some (Ord.compare a b)
  | _, _ => none

/-- Equality of values. Values of different kinds differ; floats are equal as numbers, so that
the two zeros are equal and what is not a number differs from itself. -/
def same : Value → Value → Bool
  | null, null => true
  | bool a, bool b => a == b
  | int a, int b => a == b
  | float a, float b => a.equal b
  | string a, string b => a == b
  | bytes a, bytes b => a == b
  | _, _ => false

/-- The text of a value for readers. Texts stand for themselves, and bytes are counted. -/
def display : Value → String
  | null => "null"
  | bool b => if b then "true" else "false"
  | int n => toString n.toInt
  | float x => String.ofList x.plain
  | string s => s
  | bytes bs => "<" ++ toString bs.length ++ " bytes>"

@[simp] theorem compare_null_left (v : Value) : compare null v = none := by
  cases v <;> rfl

@[simp] theorem compare_null_right (v : Value) : compare v null = none := by
  cases v <;> rfl

end Value

end ScreenedQuery
