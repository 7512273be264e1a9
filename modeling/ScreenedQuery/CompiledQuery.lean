import ScreenedQuery.Value.Encoding

/-!
# Compiled queries

What a backend makes of a draft: a text in its own language in which values stand only as
placeholders, and the values.

## Main definitions

* `CompiledQuery`: text, parameters and whether a transaction is wanted
* `CompiledQuery.toJson`, `CompiledQuery.ofJson?`: a compiled query in JSON
-/

namespace ScreenedQuery

/-- **A query in the language of a backend.** -/
structure CompiledQuery where
  /-- The text; values do not stand in it. -/
  text : String
  /-- The values of the placeholders, in their order. -/
  params : List Value
  /-- Whether the session asked for a transaction. -/
  transactional : Bool
  deriving DecidableEq

namespace CompiledQuery

def toJson (query : CompiledQuery) : Json :=
  .object [("text", .string query.text), ("params", .array (query.params.map Value.toJson)),
    ("transactional", .bool query.transactional)]

/-- The compiled query that a JSON value describes. -/
def ofJson? (json : Json) : Option CompiledQuery := do
  let parts ← json.parts? ["text", "params", "transactional"] false
  let text ← Json.required parts "text" Json.toText?
  let params ← Json.required parts "params" (Json.toList? Value.ofJson?)
  let transactional ← Json.required parts "transactional" Json.toBool?
  return ⟨text, params, transactional⟩

end CompiledQuery

end ScreenedQuery
