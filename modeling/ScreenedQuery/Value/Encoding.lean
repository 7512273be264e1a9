import ScreenedQuery.Json.Shape
import ScreenedQuery.Value.Basic

/-!
# Values in JSON

A value is written with its kind: an object with a tag `t` and, null apart, a content `v`. Plain
JSON scalars can be taken as values too.

## Main definitions

* `Value.toJson`, `Value.ofJson?`: values with their tags
* `Value.ofScalar`: plain JSON scalars as values
* `Value.toPlain`: a value as plain JSON
-/

namespace ScreenedQuery.Value

/-- A value with its tag. -/
def toJson : Value → Json
  | null => .object [("t", .string "Null")]
  | bool b => .object [("t", .string "Bool"), ("v", .bool b)]
  | int n => .object [("t", .string "Int"), ("v", .integer n.toInt)]
  | float x => .object [("t", .string "Float"), ("v", .real x)]
  | string s => .object [("t", .string "String"), ("v", .string s)]
  | bytes bs => .object [("t", .string "Bytes"), ("v", .array (bs.map (.integer ·.toNat)))]

/-- The value of a tag and a content. -/
def ofTagged? (tag : String) (content : Option Json) : Option Value :=
  match tag, content with
  | "Null", none => some null
  | "Null", some .null => some null
  | "Bool", some json => json.toBool?.map bool
  | "Int", some json => json.toInt64?.map int
  | "Float", some json => json.toFloat?.map float
  | "String", some json => json.toText?.map string
  | "Bytes", some json => json.toBytes?.map bytes
  | _, _ => none

/-- The value of a tagged JSON value whose tag is read by `choice`. -/
def ofJsonBy? (choice : Json → Option String) : Json → Option Value
  | .array [tag, content] => (choice tag).bind fun tag => ofTagged? tag (some content)
  | .object members =>
    match Json.membersNamed members "t", Json.membersNamed members "v" with
    | [tag], [] => (choice tag).bind fun tag => ofTagged? tag none
    | [tag], [content] => (choice tag).bind fun tag => ofTagged? tag (some content)
    | _, _ => none
  | _ => none

/-- **The value of a tagged JSON value**: an object with the tag and the content in either order,
other members left aside, or the array of the two. -/
def ofJson? (json : Json) : Option Value := ofJsonBy? Json.choice? json

/-- Why a JSON value is no scalar. -/
inductive NotScalar
  | array
  | object
  /-- The value could not be read. -/
  | unreadable
  deriving DecidableEq

/-- The reason in words. -/
def NotScalar.message : NotScalar → String
  | array => "arrays are not scalar values"
  | object => "objects are not scalar values"
  | unreadable => "the value cannot be read"

/-- **A plain JSON scalar as a value.** Whole numbers beyond the signed range become floats. -/
def ofScalar : Json → Except NotScalar Value
  | .null => .ok null
  | .bool b => .ok (bool b)
  | .integer n => .ok (((Number.int64? n).map int).getD (float (Binary64.ofInt n)))
  | .real x => .ok (float x)
  | .string s => .ok (string s)
  | .array _ => .error .array
  | .object _ => .error .object
  | .unreadable => .error .unreadable

/-- A value as plain JSON, bytes as an array of numbers. -/
def toPlain : Value → Json
  | null => .null
  | bool b => .bool b
  | int n => .integer n.toInt
  | float x => if x.isFinite then .real x else .null
  | string s => .string s
  | bytes bs => .array (bs.map (.integer ·.toNat))

end ScreenedQuery.Value
