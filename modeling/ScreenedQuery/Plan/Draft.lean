import ScreenedQuery.Backend
import ScreenedQuery.Plan.Condition
import ScreenedQuery.Plan.Encoding

/-!
# Plans of drafts

Every filter of a draft that has a condition becomes a step, in order; payloads are directives.

## Main definitions

* `Predicate.ofBindings`: the predicate of a structured filter
* `Plan.extend`: a plan with a clause added
* `Plan.ofDraft`: the plan of a draft
* `Plan.compile`: the compiled query of a draft

## Main results

* `Plan.compile_params`: the parameters are those of the draft
-/

namespace ScreenedQuery

/-- The predicate of a structured filter. -/
def Predicate.ofBindings (bindings : List Binding) : Predicate :=
  .allEqual (bindings.map fun binding => ⟨binding.field, binding.placeholder.index⟩)

namespace Plan

/-- A plan with a step more. -/
def addStep (plan : Plan) (link : Link) (predicate : Predicate) : Plan :=
  { plan with steps := plan.steps ++ [⟨link, predicate⟩] }

/-- **A plan with a clause added.** Filters without a field are left out. -/
def extend (plan : Plan) : Clause → Except BackendError Plan
  | .filter _ [] => .ok plan
  | .filter link bindings => .ok (plan.addStep link (.ofBindings bindings))
  | .raw link text =>
    match Predicate.ofText? text with
    | some predicate => .ok (plan.addStep link predicate)
    | none => .error (.compile ("cannot parse filter '" ++ text ++ "'"))
  | .setTarget => .ok plan
  | .misc payload =>
    match Directive.ofJson? payload with
    | some directive => .ok (plan.direct directive)
    | none => .error .plan

/-- The plan that keeps all rows of a collection. -/
def ofCollection (collection : String) : Plan := ⟨collection, [], none, none⟩

/-- **The plan of a draft.** -/
def ofDraft (draft : Draft) : Except BackendError Plan :=
  match draft.output with
  | none => .error (.compile "query has no target collection")
  | some target => draft.clauses.foldlM extend (ofCollection target.name)

/-- The compiled query of a draft: the text of its plan and its values. -/
def compile (draft : Draft) : Except BackendError CompiledQuery :=
  (ofDraft draft).map fun plan => ⟨plan.toText, draft.params, false⟩

/-- The parameters of a compiled query are those of the draft. -/
theorem compile_params {draft : Draft} {query : CompiledQuery} (h : compile draft = .ok query) :
    query.params = draft.params := by
  unfold compile at h
  cases hplan : ofDraft draft with
  | error error => simp [hplan, Except.map] at h
  | ok plan =>
    simp only [hplan, Except.map, Except.ok.injEq] at h
    simp [← h]

end Plan

end ScreenedQuery
