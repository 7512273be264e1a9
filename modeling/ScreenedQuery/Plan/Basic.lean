import ScreenedQuery.Fragment

/-!
# Plans

A plan is a query over collections of records: steps that narrow or widen the selection one after
the other, an order and a limit. The conditions of a step compare fields with parameters, given by
their numbers, or with a literal.

## Main definitions

* `Comparison`: the six comparisons
* `Comparison.holds`: when a field is in a comparison with a value
* `Predicate`, `Step`, `Plan`: the parts of a plan and the whole

## Main results

* `Comparison.holds_none`: a field that is not there counts as null
-/

namespace ScreenedQuery

inductive Comparison
  | eq
  | ne
  | lt
  | le
  | gt
  | ge
  deriving DecidableEq

namespace Comparison

def all : List Comparison := [eq, ne, lt, le, gt, ge]

def name : Comparison → String
  | eq => "eq"
  | ne => "ne"
  | lt => "lt"
  | le => "le"
  | gt => "gt"
  | ge => "ge"

/-- Whether a comparison allows an order. -/
def allows : Comparison → Ordering → Bool
  | eq, ordering => ordering == .eq
  | ne, ordering => ordering != .eq
  | lt, ordering => ordering == .lt
  | le, ordering => ordering != .gt
  | gt, ordering => ordering == .gt
  | ge, ordering => ordering != .lt

/-- **When the value of a field is in a comparison with an expected one.** A field that is not
there counts as null. Null equals null and nothing else, and has no order; values that do not
compare are unequal. -/
def holds (comparison : Comparison) (actual : Option Value) (expected : Value) : Bool :=
  match actual.getD .null, expected with
  | .null, .null => comparison == eq
  | .null, _ | _, .null => comparison == ne
  | actual, expected =>
    match actual.compare expected with
    | some ordering => comparison.allows ordering
    | none => comparison == ne

/-- A field that is not there counts as null. -/
@[simp] theorem holds_none (comparison : Comparison) (expected : Value) :
    comparison.holds none expected = comparison.holds (some .null) expected := rfl

end Comparison

/-- A field that has to equal a parameter. -/
structure FieldParam where
  field : String
  /-- The number of the parameter, counted from zero. -/
  param : Nat
  deriving DecidableEq

inductive Predicate
  /-- Every field equals its parameter. -/
  | allEqual (fields : List FieldParam)
  /-- A field is in a comparison with a literal. -/
  | compare (field : String) (comparison : Comparison) (literal : Value)
  deriving DecidableEq

/-- A step: a condition, and how it acts on the selection so far. -/
structure Step where
  /-- Whether the step widens the selection, or narrows it. -/
  link : Link
  predicate : Predicate
  deriving DecidableEq

structure OrderBy where
  field : String
  /-- Whether greater values come first. -/
  descending : Bool
  deriving DecidableEq

/-- **A query over collections of records.** -/
structure Plan where
  collection : String
  steps : List Step
  orderBy : Option OrderBy
  limit : Option Nat
  deriving DecidableEq

end ScreenedQuery
