import ScreenedQuery.FieldMap
import ScreenedQuery.Number.Binary64

/-!
# JSON values

A JSON value as it was written: the members of an object in their order, repeated names and all.
Whole numbers of 64 bits stay whole numbers, and every other number is binary64.

## Main definitions

* `Json`: JSON values
* `Json.isReadable`: whether every part of a value has a meaning
* `Json.canonical`: objects with their members sorted, the last one of each name

## Implementation notes

Some texts are well formed but have no meaning: numbers beyond the range of binary64, strings with
half a surrogate pair, and arrays and objects nested too deeply. They become `unreadable`, so that
who skips them accepts them and who asks for a value refuses them.
-/

namespace ScreenedQuery

/-- A JSON value as written. -/
inductive Json
  | null
  | bool (b : Bool)
  /-- A whole number that fits 64 bits, with a sign or without. -/
  | integer (n : Int)
  /-- Any other number. -/
  | real (x : Binary64)
  | string (s : String)
  | array (items : List Json)
  /-- An object, its members as written. -/
  | object (members : List (String × Json))
  /-- A well formed text without a meaning. -/
  | unreadable
  deriving Inhabited

namespace Json

mutual

/-- Whether every part of a value has a meaning. -/
def isReadable : Json → Bool
  | array items => areReadable items
  | object members => membersReadable members
  | unreadable => false
  | _ => true

/-- Whether all values of a list have a meaning. -/
def areReadable : List Json → Bool
  | [] => true
  | item :: items => isReadable item && areReadable items

/-- Whether the values of all members have a meaning. -/
def membersReadable : List (String × Json) → Bool
  | [] => true
  | (_, value) :: members => isReadable value && membersReadable members

end

mutual

/-- **The value with its objects in canonical form**: members sorted by name, and of members
with one name the last. -/
def canonical : Json → Json
  | array items => array (canonicalItems items)
  | object members => object (FieldMap.ofList (canonicalMembers members)).entries
  | json => json

/-- The canonical forms of the values of a list. -/
def canonicalItems : List Json → List Json
  | [] => []
  | item :: items => canonical item :: canonicalItems items

/-- The members with their values in canonical form. -/
def canonicalMembers : List (String × Json) → List (String × Json)
  | [] => []
  | (name, value) :: members => (name, canonical value) :: canonicalMembers members

end

/-- The members of an object with a name. -/
def membersNamed (members : List (String × Json)) (name : String) : List Json :=
  (members.filter (·.1 == name)).map (·.2)

end Json

end ScreenedQuery
