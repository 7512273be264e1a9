import ScreenedQuery.Backend
import ScreenedQuery.Plan.Draft
import ScreenedQuery.Screen.Basic
import ScreenedQuery.Sorting

/-!
# The evaluation of plans

A plan is evaluated on collections of records. The first step sets the selection, every other one
narrows or widens it; what is selected keeps the order of the collection unless the plan orders
it, and is cut to the limit at the end. The evaluation panics when the number of a parameter cannot
be told, and it may panic when records that do not compare consistently are to be put in order.

## Main definitions

* `Collections`: records by the names of their collections
* `Predicate.resolve`: a predicate with its parameters put in
* `selects`: whether steps select a record
* `Plan.evaluate`: the rows of a plan
* `Plan.backend`: collections as a backend

## Main results

* `OrderBy.compare_missing`: records without the field come last
* `Plan.evaluate_unknown`: a collection that is not there is reported
-/

namespace ScreenedQuery

/-- Records by the names of their collections. -/
abbrev Collections := FieldMap (List Record)

/-- Appends records to a collection, which is made if it is not there. -/
def Collections.add (collections : Collections) (name : String) (records : List Record) :
    Collections :=
  collections.insert name ((collections.get? name).getD [] ++ records)

/-- How a field is reported the parameter of which has no value. The parameter is named by its number
counted from one, which is made in 64 bits: behind the greatest number there is none, and the
evaluation panics. -/
def FieldParam.unbound (entry : FieldParam) : BackendError :=
  if entry.param + 1 < UInt64.size then
    .execute ("parameter " ++ toString (entry.param + 1) ++ " is not bound")
  else .panic

/-- The value of a field's parameter. -/
def FieldParam.resolve (params : List Value) (entry : FieldParam) :
    Except BackendError (String × Value) :=
  match params[entry.param]? with
  | some value => .ok (entry.field, value)
  | none => .error entry.unbound

/-- **A predicate with its parameters put in**: the records on which it holds. -/
def Predicate.resolve (params : List Value) : Predicate → Except BackendError (Record → Bool)
  | allEqual fields => do
    let expected ← fields.mapM (FieldParam.resolve params)
    return fun record => expected.all fun (field, value) =>
      Comparison.eq.holds (record.get? field) value
  | compare field comparison literal =>
    .ok fun record => comparison.holds (record.get? field) literal

/-- The effect of a step on the selection so far. -/
def Link.combine : Link → Bool → Bool → Bool
  | or, selected, holds => selected || holds
  | _, selected, holds => selected && holds

/-- **Whether steps select a record.** The first one decides by itself, whatever its link. -/
def selects (steps : List (Link × (Record → Bool))) (record : Record) : Bool :=
  match steps with
  | [] => true
  | (_, first) :: rest =>
    rest.foldl (fun selected (link, condition) => link.combine selected (condition record))
      (first record)

/-- The order of two records: by the field, with the records that lack it at the end; values that
do not compare are taken as equal. -/
def OrderBy.compare (order : OrderBy) (a b : Record) : Ordering :=
  let ordering := match a.get? order.field, b.get? order.field with
    | some x, some y => (x.compare y).getD .eq
    | some _, none => .lt
    | none, some _ => .gt
    | none, none => .eq
  if order.descending then ordering.swap else ordering

/-- A record without the field comes after one with it in ascending order. -/
theorem OrderBy.compare_missing {field : String} {a b : Record} (ha : (a.get? field).isSome)
    (hb : b.get? field = none) : OrderBy.compare ⟨field, false⟩ a b = .lt := by
  obtain ⟨x, hx⟩ := Option.isSome_iff_exists.mp ha
  simp [OrderBy.compare, hx, hb]

namespace Plan

/-- The conditions of the steps, their parameters put in. -/
def conditions (plan : Plan) (params : List Value) :
    Except BackendError (List (Link × (Record → Bool))) :=
  plan.steps.mapM fun step => (step.predicate.resolve params).map (step.link, ·)

/-- The records in the order of the plan. -/
def arrange (plan : Plan) (sorting : Sorting Record) (records : List Record) :
    Except BackendError (List Record) :=
  match plan.orderBy with
  | some order =>
    match sorting.sort order.compare records with
    | some sorted => .ok sorted
    | none => .error .panic
  | none => .ok records

/-- The records cut to the limit of the plan. -/
def cut (plan : Plan) (records : List Record) : List Record :=
  match plan.limit with
  | some limit => records.take limit
  | none => records

/-- **The rows of a plan.** -/
def evaluate (plan : Plan) (sorting : Sorting Record) (collections : Collections)
    (params : List Value) : Except BackendError (List Record) :=
  match collections.get? plan.collection with
  | none => .error (.unknownCollection plan.collection)
  | some records => do
    let conditions ← plan.conditions params
    let arranged ← plan.arrange sorting (records.filter (selects conditions))
    return plan.cut arranged

/-- The rows of a compiled query. -/
def execute (sorting : Sorting Record) (collections : Collections) (query : CompiledQuery) :
    Except BackendError (List Record) :=
  match ofText? query.text with
  | none => .error .plan
  | some plan => plan.evaluate sorting collections query.params

/-- **Collections as a backend**, which sorts in the given way. -/
def backend (screen : Screen) (collections : Collections) (sorting : Sorting Record := .merge) :
    Backend where
  flagsText := screen.flagsText
  flagsField := screen.flagsField
  compile := compile
  execute := execute sorting collections

/-- A collection that is not there is reported. -/
theorem evaluate_unknown {plan : Plan} {sorting : Sorting Record} {collections : Collections}
    (h : collections.get? plan.collection = none) (params : List Value) :
    plan.evaluate sorting collections params = .error (.unknownCollection plan.collection) := by
  simp [evaluate, h]

end Plan

end ScreenedQuery
