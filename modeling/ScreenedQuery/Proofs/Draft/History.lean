import Mathlib.Data.List.Forall2
import ScreenedQuery.Proofs.Draft.Rules
import ScreenedQuery.Proofs.FieldMap

/-!
# What a draft holds of its fragments

The clauses, the bindings and the values of the draft of accepted fragments, read off the fragments
themselves. Values are numbered through all filters that count, in the order of the fragments, and
every binding leads to the value that its own fragment gives its field.

## Main definitions

* `places`: the fragments of a row, each with those before it
* `Draft.expansion`: the clauses of fragments, as the fragment and the kind of each
* `Draft.boundFields`: the fields of the filters that count, with their values
* `Clause.Carries`: a clause leads to the values of a fragment

## Main results

* `Draft.collect_operators`: each fragment is one clause, and a target may stand behind a filter
* `Draft.collect_params`, `Draft.collect_bindings`: the values and their numbers
* `Draft.collect_carries`: every clause leads to the values of its fragment
-/

namespace ScreenedQuery

/-! ## Fragments with those before them -/

/-- The fragments of a row behind others, each with all that stand before it. -/
def placesBehind (before : List Fragment) : List Fragment → List (List Fragment × Fragment)
  | [] => []
  | fragment :: rest => (before, fragment) :: placesBehind (before ++ [fragment]) rest

/-- The fragments of a row, each with those that stand before it. -/
def places (fragments : List Fragment) : List (List Fragment × Fragment) :=
  placesBehind [] fragments

theorem placesBehind_append_singleton (before row : List Fragment) (fragment : Fragment) :
    placesBehind before (row ++ [fragment]) =
      placesBehind before row ++ [(before ++ row, fragment)] := by
  induction row generalizing before with
  | nil => simp [placesBehind]
  | cons head row ih => simp [placesBehind, ih]

@[simp] theorem places_nil : places [] = [] := rfl

@[simp] theorem places_append_singleton (before : List Fragment) (fragment : Fragment) :
    places (before ++ [fragment]) = places before ++ [(before, fragment)] :=
  placesBehind_append_singleton [] before fragment

/-- The structured filter that a fragment was given, whether it counts or not. -/
def Fragment.filter : Fragment → Filter
  | structured _ filter => filter
  | setTarget filter _ => filter
  | _ => .empty

/-- The kinds of the clauses of a fragment behind others: its own, and that of the filter of a
target that no filter stands before. -/
def Fragment.clauseKinds (before : List Fragment) (fragment : Fragment) : List Kind :=
  match fragment with
  | setTarget _ _ =>
    if opened before then [.setTarget] else [.structured .start, .setTarget]
  | _ => [fragment.kind]

/-- The clauses of a fragment behind others, its values numbered from `first` on. -/
def Fragment.clauses (before : List Fragment) (first : Nat) : Fragment → List Clause
  | structured link filter => [.filter link (Draft.bindingsFrom first filter.keys)]
  | raw link text => [.raw link text]
  | setTarget filter _ =>
    if opened before then [.setTarget]
    else [.filter .start (Draft.bindingsFrom first filter.keys), .setTarget]
  | misc payload => [.misc payload]

theorem Fragment.map_kind_clauses (before : List Fragment) (first : Nat) (fragment : Fragment) :
    (fragment.clauses before first).map Clause.kind = fragment.clauseKinds before := by
  cases fragment with
  | setTarget filter target =>
    simp only [clauses, clauseKinds]
    split <;> rfl
  | _ => rfl

namespace Draft

/-! ## Numbers of values -/

theorem bindingsFrom_append (first : Nat) (fields others : List String) :
    bindingsFrom first (fields ++ others) =
      bindingsFrom first fields ++ bindingsFrom (first + fields.length) others := by
  simp [bindingsFrom, List.zipIdx_append]

/-- The numbers of fields are consecutive. -/
theorem map_index_bindingsFrom (first : Nat) (fields : List String) :
    (bindingsFrom first fields).map (·.placeholder.index) = List.range' first fields.length := by
  simp [bindingsFrom, Function.comp_def]

theorem map_field_bindingsFrom (first : Nat) (fields : List String) :
    (bindingsFrom first fields).map (·.field) = fields := by
  simp [bindingsFrom, Function.comp_def]

theorem mem_bindingsFrom {first : Nat} {fields : List String} {binding : Binding}
    (h : binding ∈ bindingsFrom first fields) :
    ∃ i, binding.placeholder.index = first + i ∧ fields[i]? = some binding.field := by
  simp only [bindingsFrom, List.mem_map] at h
  obtain ⟨⟨field, index⟩, hmem, rfl⟩ := h
  obtain ⟨hle, hlt, hfield⟩ := List.mem_zipIdx hmem
  refine ⟨index - first, by simp; omega, ?_⟩
  rw [List.getElem?_eq_getElem (by omega)]
  simpa using hfield.symm

/-! ## Clauses and values -/

theorem collect_add_clauses (before : List Fragment) (fragment : Fragment) :
    ((collect before).add fragment).clauses =
      (collect before).clauses ++ fragment.clauses before (collect before).params.length := by
  cases fragment with
  | setTarget filter target =>
    simp only [add, addContent, collect_filtered, Fragment.clauses]
    split <;> simp [push, addFilter, bind]
  | _ => rfl

theorem collect_add_params (before : List Fragment) (fragment : Fragment) :
    ((collect before).add fragment).params =
      (collect before).params ++ (fragment.filterBehind before).entries.map (·.2) := by
  cases fragment with
  | setTarget filter target =>
    simp only [add, addContent, collect_filtered, Fragment.filterBehind]
    split <;> simp [push, addFilter, bind, FieldMap.empty]
  | structured link filter => rfl
  | _ => simp [add, addContent, push, mark, Fragment.filterBehind, FieldMap.empty]

/-- **The clauses of fragments**, each given by its fragment and its kind. -/
def expansion (fragments : List Fragment) : List (Fragment × Kind) :=
  (places fragments).flatMap fun place => (place.2.clauseKinds place.1).map (place.2, ·)

/-- **The fields of the filters that count**, with their values, in order. -/
def boundFields (fragments : List Fragment) : List (String × Value) :=
  (places fragments).flatMap fun place => (place.2.filterBehind place.1).entries

theorem expansion_append_singleton (before : List Fragment) (fragment : Fragment) :
    expansion (before ++ [fragment]) =
      expansion before ++ (fragment.clauseKinds before).map (fragment, ·) := by
  simp [expansion]

theorem boundFields_append_singleton (before : List Fragment) (fragment : Fragment) :
    boundFields (before ++ [fragment]) =
      boundFields before ++ (fragment.filterBehind before).entries := by
  simp [boundFields]

/-- **The clauses of a draft are those of its fragments.** -/
theorem collect_operators (fragments : List Fragment) :
    (collect fragments).operators = (expansion fragments).map (·.2) := by
  induction fragments using List.reverseRecOn with
  | nil => rfl
  | append_singleton before fragment ih =>
    rw [collect_append_singleton, expansion_append_singleton, List.map_append, ← ih, operators,
      operators, collect_add_clauses, List.map_append, Fragment.map_kind_clauses]
    simp [Function.comp_def]

/-- **The values of a draft are those of the filters that count.** -/
theorem collect_params (fragments : List Fragment) :
    (collect fragments).params = (boundFields fragments).map (·.2) := by
  induction fragments using List.reverseRecOn with
  | nil => rfl
  | append_singleton before fragment ih =>
    rw [collect_append_singleton, collect_add_params, ih, boundFields_append_singleton,
      List.map_append]

theorem flatMap_bindings_clauses (before : List Fragment) (first : Nat) (fragment : Fragment) :
    (fragment.clauses before first).flatMap Clause.bindings =
      bindingsFrom first (fragment.filterBehind before).keys := by
  cases fragment with
  | setTarget filter target =>
    simp only [Fragment.clauses, Fragment.filterBehind]
    split <;> simp [Clause.bindings, bindingsFrom]
  | structured link filter => simp [Fragment.clauses, Fragment.filterBehind, Clause.bindings]
  | _ => simp [Fragment.clauses, Fragment.filterBehind, Clause.bindings, bindingsFrom]

/-- **Bindings are numbered through all clauses.** -/
theorem collect_bindings (fragments : List Fragment) :
    (collect fragments).bindings = bindingsFrom 0 ((boundFields fragments).map (·.1)) := by
  induction fragments using List.reverseRecOn with
  | nil => rfl
  | append_singleton before fragment ih =>
    -- The numbers of the new bindings start where those of the draft end.
    have hlength : (collect before).params.length = (boundFields before).length := by
      simp [collect_params]
    rw [collect_append_singleton, bindings, collect_add_clauses, List.flatMap_append,
      ← bindings, ih, flatMap_bindings_clauses, boundFields_append_singleton, List.map_append,
      bindingsFrom_append, hlength]
    simp [FieldMap.keys]

/-- The bindings of all clauses have the numbers of the values, in order and without a gap. -/
theorem collect_numbered (fragments : List Fragment) :
    (collect fragments).bindings.map (·.placeholder.index) =
      List.range (collect fragments).params.length := by
  rw [collect_bindings, map_index_bindingsFrom, collect_params, List.length_map, List.length_map,
    List.range_eq_range']

/-- **The raw filters of a draft are those of its fragments.** -/
theorem raw_mem_collect_clauses_iff {fragments : List Fragment} {link : Link} {text : String} :
    .raw link text ∈ (collect fragments).clauses ↔ .raw link text ∈ fragments := by
  induction fragments using List.reverseRecOn with
  | nil => simp [empty]
  | append_singleton before fragment ih =>
    rw [collect_append_singleton, collect_add_clauses, List.mem_append, List.mem_append, ih,
      List.mem_singleton]
    refine or_congr_right ?_
    cases fragment with
    | setTarget filter target =>
      simp only [Fragment.clauses]
      split <;> simp
    | _ => simp [Fragment.clauses]

/-- **Every clause lists its fields in increasing order.** -/
theorem fields_pairwise_of_mem_collect (fragments : List Fragment) :
    ∀ clause ∈ (collect fragments).clauses, (clause.bindings.map (·.field)).Pairwise (· < ·) := by
  induction fragments using List.reverseRecOn with
  | nil => simp [empty]
  | append_singleton before fragment ih =>
    rw [collect_append_singleton, collect_add_clauses, List.forall_mem_append]
    refine ⟨ih, ?_⟩
    cases fragment with
    | structured link filter =>
      simpa [Fragment.clauses, Clause.bindings, map_field_bindingsFrom] using filter.keys_pairwise
    | setTarget filter target =>
      simp only [Fragment.clauses]
      split
      · simp [Clause.bindings]
      · simpa [Clause.bindings, map_field_bindingsFrom] using filter.keys_pairwise
    | _ => simp [Fragment.clauses, Clause.bindings]

end Draft

/-! ## From a clause back to its fragment -/

/-- **A clause leads to the values of a fragment**: the placeholder of every binding stands for the
value that the fragment was given for its field. -/
def Clause.Carries (params : List Value) (source : Fragment) (clause : Clause) : Prop :=
  ∀ binding ∈ clause.bindings, ∃ value,
    source.filter.get? binding.field = some value ∧
      params[binding.placeholder.index]? = some value

/-- Values that are appended do not change what a clause leads to. -/
theorem Clause.Carries.append {params : List Value} {source : Fragment} {clause : Clause}
    (h : clause.Carries params source) (others : List Value) :
    clause.Carries (params ++ others) source := by
  intro binding hmem
  obtain ⟨value, hvalue, hparam⟩ := h binding hmem
  have hlt := (List.getElem?_eq_some_iff.mp hparam).1
  exact ⟨value, hvalue, by rw [List.getElem?_append_left hlt]; exact hparam⟩

/-- The bindings of a filter lead to its values, once these are appended. -/
theorem carries_of_filter (params : List Value) (source : Fragment) (link : Link) :
    (Clause.filter link (Draft.bindingsFrom params.length source.filter.keys)).Carries
      (params ++ source.filter.entries.map (·.2)) source := by
  intro binding hmem
  obtain ⟨i, hindex, hfield⟩ := Draft.mem_bindingsFrom hmem
  simp only [FieldMap.keys, List.getElem?_map, Option.map_eq_some_iff] at hfield
  obtain ⟨⟨field, value⟩, hentry, rfl⟩ := hfield
  refine ⟨value, ?_, ?_⟩
  · exact FieldMap.get?_of_mem (List.mem_of_getElem? hentry)
  · rw [hindex, List.getElem?_append_right (by omega)]
    simp [hentry]

theorem carries_of_bindings_eq_nil {params : List Value} {source : Fragment} {clause : Clause}
    (h : clause.bindings = []) : clause.Carries params source := by
  intro binding hmem
  simp [h] at hmem

/-- The clauses of a fragment, matched with its kinds, lead to its values. -/
theorem forall₂_clauses (before : List Fragment) (params : List Value) (fragment : Fragment) :
    List.Forall₂ (fun source clause => clause.kind = source.2 ∧
        clause.Carries (params ++ (fragment.filterBehind before).entries.map (·.2)) source.1)
      ((fragment.clauseKinds before).map (fragment, ·))
      (fragment.clauses before params.length) := by
  cases fragment with
  | structured link filter =>
    exact .cons ⟨rfl, carries_of_filter params (.structured link filter) link⟩ .nil
  | raw link text => exact .cons ⟨rfl, carries_of_bindings_eq_nil rfl⟩ .nil
  | setTarget filter target =>
    simp only [Fragment.clauseKinds, Fragment.clauses, Fragment.filterBehind]
    -- Without a filter before it a target brings a clause for its own filter.
    split
    · exact .cons ⟨rfl, carries_of_bindings_eq_nil rfl⟩ .nil
    · exact .cons ⟨rfl, carries_of_filter params (.setTarget filter target) .start⟩
        (.cons ⟨rfl, carries_of_bindings_eq_nil rfl⟩ .nil)
  | misc payload => exact .cons ⟨rfl, carries_of_bindings_eq_nil rfl⟩ .nil

/-- **Every clause of a draft leads to the values of the fragment that it comes from.** -/
theorem Draft.collect_carries (fragments : List Fragment) :
    List.Forall₂ (fun source clause => clause.kind = source.2 ∧
        clause.Carries (collect fragments).params source.1)
      (expansion fragments) (collect fragments).clauses := by
  induction fragments using List.reverseRecOn with
  | nil => exact .nil
  | append_singleton before fragment ih =>
    rw [collect_append_singleton, expansion_append_singleton, collect_add_clauses,
      collect_add_params]
    -- The clauses of the fragments before keep their values when others are appended.
    refine List.rel_append ?_ (forall₂_clauses before (collect before).params fragment)
    exact ih.imp fun source clause h => ⟨h.1, h.2.append _⟩

end ScreenedQuery
