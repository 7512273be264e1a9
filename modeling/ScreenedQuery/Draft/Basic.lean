import ScreenedQuery.Fragment

/-!
# Drafts

A draft is the query as far as it has been put together, in no backend's language: clauses in the
order in which they came, and the values of their filters, moved out of them and numbered.

## Main definitions

* `Placeholder`, `Binding`: a field and the number of its value
* `Clause`: a fragment as the draft keeps it
* `Draft`: clauses, values and what the rules need to know of the fragments before
* `Draft.bindings`: the bindings of all filters in the order of the clauses

## Main results

* `Draft.bind_params`: binding a filter appends its values
-/

namespace ScreenedQuery

/-- The number of a bound value, counted from zero. -/
structure Placeholder where
  /-- The position of the value among the values of the draft. -/
  index : Nat
  deriving DecidableEq

/-- A placeholder as it is written; placeholders are written counting from one. -/
def Placeholder.marker (placeholder : Placeholder) : String :=
  "?" ++ toString (placeholder.index + 1)

/-- A field of a filter, with the placeholder of its value. -/
structure Binding where
  field : String
  /-- The placeholder that stands for its value. -/
  placeholder : Placeholder
  deriving DecidableEq

/-- **A clause of a draft.** -/
inductive Clause
  | filter (link : Link) (bindings : List Binding)
  | raw (link : Link) (text : String)
  | setTarget
  | misc (payload : Json)

namespace Clause

/-- The kind of the fragments that a clause comes from. -/
def kind : Clause → Kind
  | filter link _ => .structured link
  | raw link _ => .raw link
  | setTarget => .setTarget
  | misc _ => .misc

/-- The bindings of a clause. -/
def bindings : Clause → List Binding
  | filter _ bindings => bindings
  | _ => []

end Clause

/-- **A query as far as it has been put together.** -/
structure Draft where
  /-- The clauses in the order in which they came. -/
  clauses : List Clause := []
  /-- The values in the order of their placeholders. -/
  params : List Value := []
  /-- The kind of the fragment looked at last. -/
  current : Kind := .unknown
  /-- The kind of the fragment accepted last. -/
  previous : Kind := .unknown
  /-- Whether a filter has opened the chain of conditions. -/
  filtered : Bool := false
  /-- The target declared last. -/
  output : Option Target := none
  /-- Whether a fragment was refused, so that only a part of the query is here. -/
  poisoned : Bool := false

namespace Draft

/-- The draft to which nothing has been added. -/
def empty : Draft := {}

instance : Inhabited Draft := ⟨empty⟩

/-- The value of a placeholder. -/
def param? (draft : Draft) (placeholder : Placeholder) : Option Value :=
  draft.params[placeholder.index]?

/-- The kinds of the clauses. -/
def operators (draft : Draft) : List Kind := draft.clauses.map Clause.kind

/-- The bindings of all clauses, in order. -/
def bindings (draft : Draft) : List Binding := draft.clauses.flatMap Clause.bindings

def push (draft : Draft) (clause : Clause) : Draft :=
  { draft with clauses := draft.clauses ++ [clause] }

/-- The bindings of fields whose values are numbered from `first` on. -/
def bindingsFrom (first : Nat) (fields : List String) : List Binding :=
  fields.zipIdx first |>.map fun (field, index) => ⟨field, ⟨index⟩⟩

/-- **Moves the values of a filter into the draft**, and leaves bindings in their place. -/
def bind (draft : Draft) (filter : Filter) : List Binding × Draft :=
  (bindingsFrom draft.params.length filter.keys,
    { draft with params := draft.params ++ filter.entries.map (·.2) })

/-- Binding a filter appends its values. -/
@[simp] theorem bind_params (draft : Draft) (filter : Filter) :
    (draft.bind filter).2.params = draft.params ++ filter.entries.map (·.2) := rfl

/-- A filter without fields binds nothing. -/
@[simp] theorem bind_empty (draft : Draft) : draft.bind .empty = ([], draft) := by
  simp [bind, bindingsFrom, FieldMap.empty, FieldMap.keys]

end Draft

end ScreenedQuery
