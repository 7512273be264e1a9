import ScreenedQuery.Plan.Evaluation
import ScreenedQuery.Proofs.Draft.Structured

/-!
# What a draft of structured filters selects

A draft of structured filters says which records it selects: each filter asks for the values of its
fields, and the filters act one after the other, each as its link says. The plan of the draft keeps
the records that the draft selects, in the order of their collection.

## Main definitions

* `Binding.holds`, `Clause.condition?`: what a binding and a clause ask of a record
* `Draft.selects`: whether a draft selects a record
* `Draft.selectsBy`: whether it does when its bindings have outcomes

## Main results

* `Plan.ofDraft_of_isStructured`: the plan of a draft
* `Plan.evaluate_of_isStructured`: the rows of this plan
-/

namespace ScreenedQuery

/-! ## Conditions -/

/-- Whether the field of a binding has the value of its placeholder. -/
def Binding.holds (params : List Value) (record : Record) (binding : Binding) : Bool :=
  Comparison.eq.holds (record.get? binding.field) (params[binding.placeholder.index]?.getD .null)

/-- **What a clause asks of a record**, with its link, if it is a filter with fields. -/
def Clause.condition? (params : List Value) : Clause → Option (Link × (Record → Bool))
  | filter _ [] => none
  | filter link bindings => some (link, fun record => bindings.all (Binding.holds params record))
  | _ => none

/-- **Whether a draft of structured filters selects a record.** -/
def Draft.selects (draft : Draft) (record : Record) : Bool :=
  ScreenedQuery.selects (draft.clauses.filterMap (Clause.condition? draft.params)) record

/-- What a clause comes to when its bindings have outcomes, with its link, if it is a filter with
fields. -/
def Clause.outcome? (test : Binding → Bool) : Clause → Option (Link × Bool)
  | filter _ [] => none
  | filter link bindings => some (link, bindings.all test)
  | _ => none

/-- **What the filters of a draft come to** when the bindings have outcomes. -/
def Draft.selectsBy (test : Binding → Bool) (draft : Draft) : Bool :=
  match draft.clauses.filterMap (Clause.outcome? test) with
  | [] => true
  | (_, first) :: rest =>
    rest.foldl (fun selected (link, outcome) => link.combine selected outcome) first

/-- A record is selected by the outcomes that the bindings have on it. -/
theorem Draft.selects_eq_selectsBy (draft : Draft) (record : Record) :
    draft.selects record = draft.selectsBy (Binding.holds draft.params record) := by
  have houtcomes : draft.clauses.filterMap (Clause.outcome? (Binding.holds draft.params record)) =
      (draft.clauses.filterMap (Clause.condition? draft.params)).map
        fun next => (next.1, next.2 record) := by
    rw [List.map_filterMap]
    refine List.filterMap_congr fun clause _ => ?_
    cases clause with
    | filter link bindings => cases bindings <;> rfl
    | _ => rfl
  rw [selects, selectsBy, houtcomes]
  cases draft.clauses.filterMap (Clause.condition? draft.params) with
  | nil => rfl
  | cons first rest =>
    rw [List.map_cons]
    dsimp only
    rw [List.foldl_map]
    rfl

/-- Only the outcomes of the bindings of a draft count. -/
theorem Draft.selectsBy_congr {test other : Binding → Bool} {draft : Draft}
    (h : ∀ clause ∈ draft.clauses, ∀ binding ∈ clause.bindings, test binding = other binding) :
    draft.selectsBy test = draft.selectsBy other := by
  have houtcomes : draft.clauses.filterMap (Clause.outcome? test) =
      draft.clauses.filterMap (Clause.outcome? other) := by
    refine List.filterMap_congr fun clause hclause => ?_
    cases clause with
    | filter link bindings =>
      cases bindings with
      | nil => rfl
      | cons first bindings =>
        have hall : (first :: bindings).all test = (first :: bindings).all other := by
          rw [Bool.eq_iff_iff, List.all_eq_true, List.all_eq_true]
          exact forall₂_congr fun binding hbinding => by rw [h _ hclause binding hbinding]
        exact congrArg (fun outcome => some (link, outcome)) hall
    | _ => rfl
  rw [selectsBy, selectsBy, houtcomes]

/-- **The step of a clause**, if it is a filter with a condition. -/
def Clause.step? : Clause → Option Step
  | filter _ [] => none
  | filter link bindings => some ⟨link, .ofBindings bindings⟩
  | raw link text => (Predicate.ofText? text).map (Step.mk link)
  | _ => none

/-- A binding that has a value. -/
def Binding.IsBound (params : List Value) (binding : Binding) : Prop :=
  (params[binding.placeholder.index]?).isSome

/-! ## Plans -/

/-- The predicate of bindings that have values. -/
theorem Predicate.resolve_ofBindings {params : List Value} {bindings : List Binding}
    (h : ∀ binding ∈ bindings, binding.IsBound params) :
    (ofBindings bindings).resolve params =
      .ok fun record => bindings.all (Binding.holds params record) := by
  have hexpected : (bindings.map fun binding =>
        (⟨binding.field, binding.placeholder.index⟩ : FieldParam)).mapM
          (FieldParam.resolve params) =
      .ok (bindings.map fun binding =>
        (binding.field, params[binding.placeholder.index]?.getD .null)) := by
    induction bindings with
    | nil => rfl
    | cons binding bindings ih =>
      rw [List.forall_mem_cons] at h
      obtain ⟨value, hvalue⟩ := Option.isSome_iff_exists.mp h.1
      rw [List.map_cons, List.mapM_cons, ih h.2, FieldParam.resolve, hvalue]
      simp [hvalue, bind, Except.bind, pure, Except.pure]
  rw [ofBindings, resolve, hexpected]
  refine congrArg Except.ok (funext fun record => ?_)
  rw [List.all_map]
  rfl

namespace Plan

variable {draft : Draft}

/-- Structured clauses add their steps, and neither an order nor a limit. -/
theorem foldlM_extend_of_isStructured {P : Binding → Prop} {clauses : List Clause}
    (h : ∀ clause ∈ clauses, clause.IsStructured P) (plan : Plan) :
    clauses.foldlM extend plan =
      .ok { plan with steps := plan.steps ++ clauses.filterMap Clause.step? } := by
  induction clauses generalizing plan with
  | nil => simp [pure, Except.pure]
  | cons clause clauses ih =>
    rw [List.forall_mem_cons] at h
    rw [List.foldlM_cons]
    rcases h.1.cases with (rfl | ⟨link, rfl⟩) | ⟨link, first, bindings, rfl, -⟩
    · exact ih h.2 plan
    · exact ih h.2 plan
    · refine (ih h.2 (plan.addStep link (.ofBindings (first :: bindings)))).trans ?_
      simp [addStep, Clause.step?]

/-- **The plan of a draft of structured filters** has a step for each filter with fields. -/
theorem ofDraft_of_isStructured {P : Binding → Prop} {target : Target}
    (houtput : draft.output = some target) (hdraft : draft.IsStructured P) :
    ofDraft draft = .ok ⟨target.name, draft.clauses.filterMap Clause.step?, none, none⟩ := by
  rw [ofDraft, houtput]
  exact foldlM_extend_of_isStructured hdraft _

/-- The conditions of the steps are those of the clauses. -/
theorem conditions_step? {params : List Value} {clauses : List Clause}
    (h : ∀ clause ∈ clauses, clause.IsStructured (Binding.IsBound params)) (plan : Plan)
    (hsteps : plan.steps = clauses.filterMap Clause.step?) :
    plan.conditions params = .ok (clauses.filterMap (Clause.condition? params)) := by
  rw [conditions, hsteps]
  clear hsteps
  -- A clause without a condition has no step either.
  induction clauses with
  | nil => rfl
  | cons clause clauses ih =>
    rw [List.forall_mem_cons] at h
    rcases h.1.cases with (rfl | ⟨link, rfl⟩) | ⟨link, first, bindings, rfl, hall⟩
    · exact ih h.2
    · exact ih h.2
    · have hstep : Clause.step? (.filter link (first :: bindings)) =
        some ⟨link, .ofBindings (first :: bindings)⟩ := rfl
      rw [List.filterMap_cons_some hstep, List.mapM_cons, ih h.2,
        Predicate.resolve_ofBindings hall]
      rfl

/-- **The rows of a plan of structured filters** are those that the draft selects. -/
theorem evaluate_of_isStructured (hdraft : draft.IsStructured (Binding.IsBound draft.params))
    {sorting : Sorting Record} {collections : Collections} {name : String} {records : List Record}
    (hcollection : collections.get? name = some records) :
    (Plan.mk name (draft.clauses.filterMap Clause.step?) none none).evaluate sorting collections
      draft.params = .ok (records.filter draft.selects) := by
  rw [evaluate, hcollection]
  dsimp only
  rw [conditions_step? hdraft _ rfl]
  rfl

/-- A query is executed as the plan that its text is read as. -/
theorem execute_eq_evaluate {plan : Plan} {query : CompiledQuery} {sorting : Sorting Record}
    {collections : Collections} (hread : ofText? query.text = some plan) :
    execute sorting collections query = plan.evaluate sorting collections query.params := by
  rw [execute, hread]

@[simp] theorem compile_backend (screen : Screen) (collections : Collections)
    (sorting : Sorting Record) : (backend screen collections sorting).compile = compile := rfl

@[simp] theorem execute_backend (screen : Screen) (collections : Collections)
    (sorting : Sorting Record) :
    (backend screen collections sorting).execute = execute sorting collections := rfl

end Plan

end ScreenedQuery
