import ScreenedQuery.Json.Basic
import ScreenedQuery.Number.Int64

/-!
# Shapes of JSON values

How typed data is read from JSON values. A record may be written as an object or as the array of
its fields in their order; the name of a choice may be written alone or as the only member of an
object.

## Main definitions

* `Json.toText?`, `Json.toBool?`, `Json.toInt64?`, `Json.toSize?`, `Json.toFloat?`,
  `Json.toBytes?`: scalars
* `Json.parts?`: the fields of a record
* `Json.required`, `Json.optional`, `Json.nullable`: one field of a record
* `Json.choice?`, `Json.laxChoice?`: the name of a choice without a payload
-/

namespace ScreenedQuery.Json

/-- A string. -/
def toText? : Json → Option String
  | string s => some s
  | _ => none

/-- A truth value. -/
def toBool? : Json → Option Bool
  | bool b => some b
  | _ => none

/-- A whole number of 64 bits with a sign. -/
def toInt64? : Json → Option Int64
  | integer n => Number.int64? n
  | _ => none

/-- A count: a whole number of 64 bits without a sign. -/
def toSize? : Json → Option Nat
  | integer n => if 0 ≤ n ∧ n < UInt64.size then some n.toNat else none
  | _ => none

/-- A binary64 number; whole numbers are rounded. -/
def toFloat? : Json → Option Binary64
  | integer n => some (Binary64.ofInt n)
  | real x => some x
  | _ => none

/-- A byte. -/
def toByte? : Json → Option UInt8
  | integer n => if 0 ≤ n ∧ n < UInt8.size then some (UInt8.ofNat n.toNat) else none
  | _ => none

/-- The items of an array, each read. -/
def toList? {α : Type} (read : Json → Option α) : Json → Option (List α)
  | array items => items.mapM read
  | _ => none

/-- A row of bytes, written as an array of numbers. -/
def toBytes? (json : Json) : Option (List UInt8) := json.toList? toByte?

/-- **The fields of a record**, with their names. In an object no field may be repeated, and with
`closed` no other member may stand beside them; in an array no item may follow the last field. -/
def parts? (names : List String) (closed : Bool) : Json → Option (List (String × Json))
  | array items => if items.length ≤ names.length then some (names.zip items) else none
  | object members =>
    if names.all (fun name => (membersNamed members name).length ≤ 1) &&
        (!closed || members.all fun member => names.contains member.1) then
      some (members.filter fun member => names.contains member.1)
    else none
  | _ => none

/-- A field that has to be there. -/
def required {α : Type} (parts : List (String × Json)) (name : String) (read : Json → Option α) :
    Option α :=
  (parts.lookup name).bind read

/-- A field that has a value of its own when it is absent. -/
def optional {α : Type} (parts : List (String × Json)) (name : String) (read : Json → Option α)
    (absent : α) : Option α :=
  match parts.lookup name with
  | none => some absent
  | some json => read json

/-- A field that may be absent or null. -/
def nullable {α : Type} (parts : List (String × Json)) (name : String) (read : Json → Option α) :
    Option (Option α) :=
  match parts.lookup name with
  | none | some null => some none
  | some json => (read json).map some

/-- **The name of a choice** without a payload: a string, or an object with that one member and
null as its value. -/
def choice? : Json → Option String
  | string name => some name
  | object [(name, null)] => some name
  | _ => none

/-- The name of a choice without a payload, where an empty object counts as none, too. -/
def laxChoice? : Json → Option String
  | object [(name, object [])] => some name
  | json => json.choice?

end ScreenedQuery.Json
