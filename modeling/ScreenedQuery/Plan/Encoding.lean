import ScreenedQuery.Json.Reader
import ScreenedQuery.Json.Writer
import ScreenedQuery.Plan.Basic
import ScreenedQuery.Value.Encoding

/-!
# Plans as text

The text of a plan is JSON. Records may be written as objects or as arrays of their fields; a
predicate is an object with its kind, or an array that starts with it. Inside a predicate a choice
without a payload may also be written with an empty object as its payload.

## Main definitions

* `Plan.toText`, `Plan.ofText?`: a plan as JSON text, and back
* `Directive.ofJson?`: the order and the limit that a payload asks for
-/

namespace ScreenedQuery

/-! ## Writing -/

/-- The word for the link of a step. -/
def Link.word : Link → String
  | start => "where"
  | and => "and"
  | or => "or"

/-- A predicate in JSON, its kind first. -/
def Predicate.toJson : Predicate → Json
  | allEqual fields =>
    .object [("kind", .string "match"),
      ("fields", .array (fields.map fun entry =>
        .object [("field", .string entry.field), ("param", .integer entry.param)]))]
  | compare field comparison literal =>
    .object [("kind", .string "compare"), ("field", .string field),
      ("op", .string comparison.name), ("literal", literal.toJson)]

def Step.toJson (step : Step) : Json :=
  .object [("connector", .string step.link.word), ("predicate", step.predicate.toJson)]

def OrderBy.toJson (order : OrderBy) : Json :=
  .object [("field", .string order.field), ("descending", .bool order.descending)]

/-- A plan in JSON; an order or a limit that is not wanted is null. -/
def Plan.toJson (plan : Plan) : Json :=
  .object [("collection", .string plan.collection), ("steps", .array (plan.steps.map Step.toJson)),
    ("order_by", (plan.orderBy.map OrderBy.toJson).getD .null),
    ("limit", (plan.limit.map fun n => Json.integer n).getD .null)]

/-- **The text of a plan.** -/
def Plan.toText (plan : Plan) : String := plan.toJson.compact

/-! ## Reading -/

/-- The link that a JSON value names. -/
def Link.ofJson? (json : Json) : Option Link :=
  json.choice?.bind fun word => [start, and, or].find? (·.word == word)

/-- The comparison that a JSON value names. -/
def Comparison.ofJson? (json : Json) : Option Comparison :=
  json.laxChoice?.bind fun name => all.find? (·.name == name)

def FieldParam.ofJson? (json : Json) : Option FieldParam := do
  let parts ← json.parts? ["field", "param"] false
  let field ← Json.required parts "field" Json.toText?
  let param ← Json.required parts "param" Json.toSize?
  return ⟨field, param⟩

/-- The predicate of a kind, from its other fields. -/
def Predicate.ofParts? (kind : String) (json : Json) : Option Predicate :=
  match kind with
  | "match" => do
    let parts ← json.parts? ["fields"] false
    let fields ← Json.required parts "fields" (Json.toList? FieldParam.ofJson?)
    return allEqual fields
  | "compare" => do
    let parts ← json.parts? ["field", "op", "literal"] false
    let field ← Json.required parts "field" Json.toText?
    let comparison ← Json.required parts "op" Comparison.ofJson?
    let literal ← Json.required parts "literal" (Value.ofJsonBy? Json.laxChoice?)
    return compare field comparison literal
  | _ => none

/-- A predicate, all of which has to have a meaning. -/
def Predicate.ofJson? (json : Json) : Option Predicate :=
  if !json.isReadable then none
  else match json with
    | .array (.string kind :: items) => ofParts? kind (.array items)
    | .object members =>
      match Json.membersNamed members "kind" with
      | [.string kind] => ofParts? kind json
      | _ => none
    | _ => none

def Step.ofJson? (json : Json) : Option Step := do
  let parts ← json.parts? ["connector", "predicate"] false
  let link ← Json.required parts "connector" Link.ofJson?
  let predicate ← Json.required parts "predicate" Predicate.ofJson?
  return ⟨link, predicate⟩

def OrderBy.ofJson? (json : Json) : Option OrderBy := do
  let parts ← json.parts? ["field", "descending"] false
  let field ← Json.required parts "field" Json.toText?
  let descending ← Json.required parts "descending" Json.toBool?
  return ⟨field, descending⟩

/-- The plan that a JSON value describes. -/
def Plan.ofJson? (json : Json) : Option Plan := do
  let parts ← json.parts? ["collection", "steps", "order_by", "limit"] false
  let collection ← Json.required parts "collection" Json.toText?
  let steps ← Json.required parts "steps" (Json.toList? Step.ofJson?)
  let orderBy ← Json.nullable parts "order_by" OrderBy.ofJson?
  let limit ← Json.nullable parts "limit" Json.toSize?
  return ⟨collection, steps, orderBy, limit⟩

/-- **The plan of a text.** -/
def Plan.ofText? (text : String) : Option Plan := (Json.parse text).bind ofJson?

/-! ## Directives -/

/-- What a payload asks of a plan: an order, a limit or both. -/
structure Directive where
  orderBy : Option String
  descending : Bool
  limit : Option Nat
  deriving DecidableEq

/-- The directive of a payload, which may hold nothing else. -/
def Directive.ofJson? (json : Json) : Option Directive := do
  let parts ← json.parts? ["order_by", "descending", "limit"] true
  let orderBy ← Json.nullable parts "order_by" Json.toText?
  let descending ← Json.optional parts "descending" Json.toBool? false
  let limit ← Json.nullable parts "limit" Json.toSize?
  return ⟨orderBy, descending, limit⟩

/-- The plan with a directive followed; what the directive does not mention stays. -/
def Plan.direct (plan : Plan) (directive : Directive) : Plan :=
  { plan with
    orderBy := match directive.orderBy with
      | some field => some ⟨field, directive.descending⟩
      | none => plan.orderBy
    limit := directive.limit.or plan.limit }

end ScreenedQuery
