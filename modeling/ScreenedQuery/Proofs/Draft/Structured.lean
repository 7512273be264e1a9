import ScreenedQuery.Proofs.Draft.History

/-!
# Drafts of structured filters

Fragments that are structured filters and targets make a draft that has nothing else, and the
placeholder of every binding stands for the value that a fragment gave for its field.

## Main definitions

* `Fragment.IsStructured`, `Clause.IsStructured`, `Draft.IsStructured`: nothing but structured
  filters, with a condition on their fields, and targets

## Main results

* `Draft.collect_isStructured`: from fragments to the draft
-/

namespace ScreenedQuery

/-- A fragment that is a structured filter or a target, with a condition on fields and values. -/
def Fragment.IsStructured (P : String → Value → Prop) : Fragment → Prop
  | structured _ filter | setTarget filter _ => ∀ entry ∈ filter.entries, P entry.1 entry.2
  | _ => False

/-- A clause that is a structured filter or a target, with a condition on its bindings. -/
def Clause.IsStructured (P : Binding → Prop) : Clause → Prop
  | filter _ bindings => ∀ binding ∈ bindings, P binding
  | setTarget => True
  | _ => False

/-- **A draft of structured filters and targets**, with a condition on all bindings. -/
def Draft.IsStructured (P : Binding → Prop) (draft : Draft) : Prop :=
  ∀ clause ∈ draft.clauses, clause.IsStructured P

/-- A structured clause has no condition, or it is a filter with fields. -/
theorem Clause.IsStructured.cases {P : Binding → Prop} {clause : Clause}
    (h : clause.IsStructured P) :
    (clause = .setTarget ∨ ∃ link, clause = .filter link []) ∨
      ∃ link first bindings, clause = .filter link (first :: bindings) ∧
        ∀ binding ∈ first :: bindings, P binding := by
  cases clause with
  | filter link bindings =>
    cases bindings with
    | nil => exact .inl (.inr ⟨link, rfl⟩)
    | cons first bindings => exact .inr ⟨link, first, bindings, rfl, h⟩
  | setTarget => exact .inl (.inl rfl)
  | raw link text => exact absurd h id
  | misc payload => exact absurd h id

theorem Clause.IsStructured.imp {P Q : Binding → Prop} (h : ∀ binding, P binding → Q binding)
    {clause : Clause} (hclause : clause.IsStructured P) : clause.IsStructured Q := by
  cases clause with
  | filter link bindings => exact fun binding hbinding => h binding (hclause binding hbinding)
  | setTarget => trivial
  | raw link text => exact hclause
  | misc payload => exact hclause

/-- The condition holds of every binding. -/
theorem Clause.IsStructured.of_mem_bindings {P : Binding → Prop} {clause : Clause}
    (h : clause.IsStructured P) {binding : Binding} (hbinding : binding ∈ clause.bindings) :
    P binding := by
  cases clause with
  | filter link bindings => exact h binding hbinding
  | _ => exact absurd hbinding List.not_mem_nil

theorem Draft.IsStructured.imp {P Q : Binding → Prop} (h : ∀ binding, P binding → Q binding)
    {draft : Draft} (hdraft : draft.IsStructured P) : draft.IsStructured Q :=
  fun clause hclause => (hdraft clause hclause).imp h

/-- A condition that every binding meets is one more condition on them. -/
theorem Draft.IsStructured.and {P Q : Binding → Prop} {draft : Draft}
    (hdraft : draft.IsStructured P)
    (h : ∀ clause ∈ draft.clauses, ∀ binding ∈ clause.bindings, Q binding) :
    draft.IsStructured fun binding => Q binding ∧ P binding := by
  intro clause hclause
  have hstructured := hdraft clause hclause
  have hbindings := h clause hclause
  cases clause with
  | filter link bindings =>
    exact fun binding hmem => ⟨hbindings binding hmem, hstructured binding hmem⟩
  | setTarget => trivial
  | raw link text => exact hstructured
  | misc payload => exact hstructured

namespace Draft

theorem isStructured_of_mem_clauses {P : String → Value → Prop} {fragment : Fragment}
    (h : fragment.IsStructured P) (before : List Fragment) (params : List Value) :
    ∀ clause ∈ fragment.clauses before params.length, clause.IsStructured fun binding =>
      ∃ value, (params ++ (fragment.filterBehind before).entries.map (·.2))[
          binding.placeholder.index]? = some value ∧ P binding.field value := by
  -- The values of the filter stand behind those that are there.
  have hfilter (filter : Filter) (hall : ∀ entry ∈ filter.entries, P entry.1 entry.2) :
      ∀ binding ∈ bindingsFrom params.length filter.keys, ∃ value,
        (params ++ filter.entries.map (·.2))[binding.placeholder.index]? = some value ∧
          P binding.field value := by
    intro binding hbinding
    obtain ⟨i, hindex, hfield⟩ := mem_bindingsFrom hbinding
    simp only [FieldMap.keys, List.getElem?_map, Option.map_eq_some_iff] at hfield
    obtain ⟨⟨field, value⟩, hentry, rfl⟩ := hfield
    refine ⟨value, ?_, hall _ (List.mem_of_getElem? hentry)⟩
    rw [hindex, List.getElem?_append_right (by omega)]
    simp [hentry]
  cases fragment with
  | structured link filter =>
    rw [Fragment.clauses, List.forall_mem_singleton]
    exact hfilter filter h
  | setTarget filter target =>
    simp only [Fragment.clauses, Fragment.filterBehind]
    split
    · rw [List.forall_mem_singleton]
      trivial
    · rw [List.forall_mem_cons, List.forall_mem_singleton]
      exact ⟨hfilter filter h, trivial⟩
  | raw link text => exact absurd h id
  | misc payload => exact absurd h id

/-- **From fragments to the draft.** -/
theorem collect_isStructured {P : String → Value → Prop} {fragments : List Fragment}
    (h : ∀ fragment ∈ fragments, fragment.IsStructured P) :
    (collect fragments).IsStructured fun binding =>
      ∃ value, (collect fragments).param? binding.placeholder = some value ∧
        P binding.field value := by
  induction fragments using List.reverseRecOn with
  | nil => exact fun clause hclause => absurd hclause List.not_mem_nil
  | append_singleton before fragment ih =>
    rw [List.forall_mem_append, List.forall_mem_singleton] at h
    intro clause hclause
    rw [collect_append_singleton, collect_add_clauses, List.mem_append] at hclause
    simp only [param?, collect_append_singleton, collect_add_params]
    rcases hclause with hclause | hclause
    · -- Values that are appended do not change the others.
      refine (ih h.1 clause hclause).imp fun binding ⟨value, hvalue, hP⟩ => ⟨value, ?_, hP⟩
      have hlt := (List.getElem?_eq_some_iff.mp hvalue).1
      rw [List.getElem?_append_left hlt]
      exact hvalue
    · exact isStructured_of_mem_clauses h.2 before _ clause hclause

end Draft

end ScreenedQuery
