import Mathlib.Data.Set.Basic
import ScreenedQuery.Proofs.Engine.Delivery
import ScreenedQuery.Proofs.Plan.Description
import ScreenedQuery.Proofs.Traversal

/-!
# What a plan keeps

A plan without an order keeps the records for which its steps hold when they are taken from the
left: the first step decides by itself, every other one narrows or widens what is kept so far. The
records stay in the order of their collection and are cut to the limit. Before any record is looked
at all parameters have to have values, and the first entry without one is reported by its number; it
is only for the greatest number of 64 bits that the evaluation panics instead.

## Main definitions

* `Step.Holds`, `Plan.KeptBy`: a step holds on a record, and steps keep it
* `Plan.chosen`: the places that steps choose by unions and intersections
* `Plan.entries`, `FieldParam.failure?`: the entries of a plan, and how one without a value is
  reported
* `Engine.Queries`: an engine that executes a query on collections

## Main results

* `Plan.selects_iff`: the selection of a plan, step by step
* `Plan.mem_chosen_iff`: the same by places
* `Plan.conditions_eq`: the conditions of a plan, or what has no value
* `Plan.execute_unordered`: the execution of a query
-/

namespace ScreenedQuery

/-! ## Steps -/

/-- **A step holds on a record**: every field equals its parameter, or the field is in the
comparison with the literal. -/
def Step.Holds (params : List Value) (record : Record) (step : Step) : Prop :=
  match step.predicate with
  | .allEqual fields => ∀ entry ∈ fields, ∃ value, params[entry.param]? = some value ∧
      Comparison.eq.holds (record.get? entry.field) value
  | .compare field comparison literal => comparison.holds (record.get? field) literal

/-- How a step acts on what is kept so far. -/
def Link.Joins (link : Link) (kept holds : Prop) : Prop :=
  match link with
  | .or => kept ∨ holds
  | _ => kept ∧ holds

theorem Link.combine_iff (link : Link) {kept holds : Bool} {P Q : Prop} (hkept : kept = true ↔ P)
    (hholds : holds = true ↔ Q) : link.combine kept holds = true ↔ link.Joins P Q := by
  cases link <;> simp [combine, Joins, hkept, hholds]

/-- How a step acts on the places that are chosen so far. -/
def Link.joinPlaces (link : Link) (chosen found : Set Nat) : Set Nat :=
  match link with
  | .or => chosen ∪ found
  | _ => chosen ∩ found

theorem Link.mem_joinPlaces (link : Link) (chosen found : Set Nat) (place : Nat) :
    place ∈ link.joinPlaces chosen found ↔ link.Joins (place ∈ chosen) (place ∈ found) := by
  cases link <;> rfl

/-- The entries of a step that need a parameter. -/
def Step.entries (step : Step) : List FieldParam :=
  match step.predicate with
  | .allEqual fields => fields
  | .compare _ _ _ => []

namespace FieldParam

variable {params : List Value} {entry : FieldParam}

/-- How an entry is reported that has no value. -/
def failure? (params : List Value) (entry : FieldParam) : Option BackendError :=
  if params.length ≤ entry.param then some entry.unbound else none

theorem failure?_eq_none_iff : entry.failure? params = none ↔ entry.param < params.length := by
  unfold failure?
  split <;> simp <;> omega

theorem resolve_eq (params : List Value) (entry : FieldParam) :
    entry.resolve params =
      (entry.failure? params).elim (.ok (entry.field, params[entry.param]?.getD .null)) .error := by
  unfold resolve failure?
  split
  · rename_i value hvalue
    have hlt := (List.getElem?_eq_some_iff.mp hvalue).1
    rw [if_neg (by omega), hvalue]
    rfl
  · rename_i hnone
    rw [if_pos (List.getElem?_eq_none_iff.mp hnone)]
    rfl

/-- An entry without a value is reported by its number counted from one. -/
theorem unbound_of_lt (h : entry.param + 1 < UInt64.size) :
    entry.unbound = .execute ("parameter " ++ toString (entry.param + 1) ++ " is not bound") :=
  if_pos h

/-- Behind the greatest number of 64 bits there is none to report. -/
theorem unbound_of_le (h : UInt64.size ≤ entry.param + 1) : entry.unbound = .panic :=
  if_neg (Nat.not_lt.mpr h)

end FieldParam

/-- The condition of a step, its parameters put in. -/
def Step.condition (params : List Value) (step : Step) : Record → Bool :=
  match step.predicate with
  | .allEqual fields => fun record =>
    (fields.map fun entry => (entry.field, params[entry.param]?.getD .null)).all
      fun (field, value) => Comparison.eq.holds (record.get? field) value
  | .compare field comparison literal => fun record => comparison.holds (record.get? field) literal

theorem Step.resolve_eq (params : List Value) (step : Step) :
    (step.predicate.resolve params).map (step.link, ·) =
      (step.entries.findSome? (·.failure? params)).elim
        (.ok (step.link, step.condition params)) .error := by
  unfold entries condition
  cases step.predicate with
  | allEqual fields =>
    rw [Predicate.resolve, mapM_eq_findSome? (FieldParam.resolve_eq params)]
    dsimp only
    cases fields.findSome? (·.failure? params) <;> rfl
  | compare field comparison literal => rfl

/-- The condition of a step whose entries have values says whether it holds. -/
theorem Step.condition_iff {params : List Value} {step : Step}
    (h : ∀ entry ∈ step.entries, entry.param < params.length) (record : Record) :
    step.condition params record = true ↔ step.Holds params record := by
  unfold condition Holds
  unfold entries at h
  cases hpredicate : step.predicate with
  | compare field comparison literal => rfl
  | allEqual fields =>
    rw [hpredicate] at h
    simp only [List.all_map, List.all_eq_true]
    refine forall₂_congr fun entry hentry => ?_
    have hvalue := List.getElem?_eq_getElem (h entry hentry)
    simp [hvalue]

namespace Plan

/-! ## Steps taken from the left -/

/-- **Steps keep a record** when they are taken from the left; the first one decides by itself, and
without a step every record is kept. -/
def KeptBy (params : List Value) (record : Record) : List Step → Prop
  | [] => True
  | first :: rest =>
    rest.foldl (fun kept step => step.link.Joins kept (step.Holds params record))
      (first.Holds params record)

theorem foldl_combine_iff {params : List Value} {record : Record} {steps : List Step}
    (h : ∀ step ∈ steps, ∀ entry ∈ step.entries, entry.param < params.length) {kept : Bool}
    {P : Prop} (hkept : kept = true ↔ P) :
    (steps.map fun step => (step.link, step.condition params)).foldl
        (fun selected next => next.1.combine selected (next.2 record)) kept = true ↔
      steps.foldl (fun kept step => step.link.Joins kept (step.Holds params record)) P := by
  induction steps generalizing kept P with
  | nil => exact hkept
  | cons step steps ih =>
    rw [List.forall_mem_cons] at h
    exact ih h.2 (step.link.combine_iff hkept (Step.condition_iff h.1 record))

/-- **The selection of steps whose entries have values.** -/
theorem selects_iff {params : List Value} {record : Record} {steps : List Step}
    (h : ∀ step ∈ steps, ∀ entry ∈ step.entries, entry.param < params.length) :
    selects (steps.map fun step => (step.link, step.condition params)) record = true ↔
      KeptBy params record steps := by
  cases steps with
  | nil => exact iff_of_true rfl trivial
  | cons first rest =>
    rw [List.forall_mem_cons] at h
    exact foldl_combine_iff h.2 (Step.condition_iff h.1 record)

/-- The places of the records on which a step holds. -/
def found (params : List Value) (records : List Record) (step : Step) : Set Nat :=
  {place | ∃ record, records[place]? = some record ∧ step.Holds params record}

/-- **The places that steps choose** when those of each step are united or intersected from the
left. -/
def chosen (params : List Value) (records : List Record) : List Step → Set Nat
  | [] => {place | place < records.length}
  | first :: rest =>
    rest.foldl (fun chosen step => step.link.joinPlaces chosen (found params records step))
      (found params records first)

theorem mem_found_iff {params : List Value} {records : List Record} {step : Step} {place : Nat}
    {record : Record} (h : records[place]? = some record) :
    place ∈ found params records step ↔ step.Holds params record := by
  simp [found, h]

/-- Steps choose the places of the records that they keep. -/
theorem mem_chosen_iff {params : List Value} {records : List Record} {steps : List Step}
    {place : Nat} {record : Record} (h : records[place]? = some record) :
    place ∈ chosen params records steps ↔ KeptBy params record steps := by
  cases steps with
  | nil => exact iff_of_true (List.getElem?_eq_some_iff.mp h).1 trivial
  | cons first rest =>
    have hfold : ∀ (places : Set Nat) (P : Prop), (place ∈ places ↔ P) →
        (place ∈ rest.foldl (fun chosen step =>
            step.link.joinPlaces chosen (found params records step)) places ↔
          rest.foldl (fun kept step => step.link.Joins kept (step.Holds params record)) P) := by
      induction rest with
      | nil => exact fun places P hplaces => hplaces
      | cons step rest ih =>
        intro places P hplaces
        refine ih _ _ ?_
        rw [Link.mem_joinPlaces, hplaces, mem_found_iff h]
    exact hfold _ _ (mem_found_iff h)

theorem lt_of_mem_chosen {params : List Value} {records : List Record} {steps : List Step}
    {place : Nat} (h : place ∈ chosen params records steps) : place < records.length := by
  have hfound : ∀ step, place ∈ found params records step → place < records.length := by
    rintro step ⟨record, hrecord, -⟩
    exact (List.getElem?_eq_some_iff.mp hrecord).1
  cases steps with
  | nil => exact h
  | cons first rest =>
    -- Neither a union nor an intersection leads out of the collection.
    have hfold : ∀ places : Set Nat, (place ∈ places → place < records.length) →
        place ∈ rest.foldl (fun chosen step =>
          step.link.joinPlaces chosen (found params records step)) places →
        place < records.length := by
      clear h
      induction rest with
      | nil => exact fun places hplaces => hplaces
      | cons step rest ih =>
        intro places hplaces
        apply ih
        rw [Link.mem_joinPlaces]
        intro hjoins
        cases hlink : step.link with
        | or =>
          rw [hlink] at hjoins
          exact hjoins.elim hplaces (hfound step)
        | start =>
          rw [hlink] at hjoins
          exact hfound step hjoins.2
        | and =>
          rw [hlink] at hjoins
          exact hfound step hjoins.2
    exact hfold _ (hfound first) h

/-! ## Rows by their places -/

theorem filterMap_getElem?_range {α : Type} (items : List α) :
    (List.range items.length).filterMap (items[·]?) = items := by
  induction items using List.reverseRecOn with
  | nil => rfl
  | append_singleton items item ih =>
    have hbefore : (List.range items.length).filterMap ((items ++ [item])[·]?) =
        (List.range items.length).filterMap (items[·]?) := by
      refine List.filterMap_congr fun place hplace => ?_
      exact List.getElem?_append_left (List.mem_range.mp hplace)
    rw [List.length_append, List.length_singleton, List.range_succ, List.filterMap_append, hbefore,
      ih]
    simp

/-- What a filter leaves stands in order at places of its own. -/
theorem exists_places {α : Type} (p : α → Bool) (items : List α) :
    ∃ places : List Nat, places.Pairwise (· < ·) ∧
      (∀ place, place ∈ places ↔ ∃ item, items[place]? = some item ∧ p item = true) ∧
      items.filter p = places.filterMap (items[·]?) := by
  refine ⟨(List.range items.length).filter fun place => (items[place]?).any p, ?_, ?_, ?_⟩
  · exact List.pairwise_lt_range.filter _
  · intro place
    rw [List.mem_filter, List.mem_range, Option.any_eq_true]
    constructor
    · exact fun h => h.2
    · rintro ⟨item, hitem, hp⟩
      exact ⟨(List.getElem?_eq_some_iff.mp hitem).1, item, hitem, hp⟩
  · conv_lhs => rw [← filterMap_getElem?_range items]
    rw [List.filter_filterMap, List.filterMap_filter]
    refine List.filterMap_congr fun place _ => ?_
    cases items[place]? <;> simp [Option.filter]

/-! ## The conditions of a plan -/

/-- The entries of a plan that need a parameter, step by step. -/
def entries (plan : Plan) : List FieldParam := plan.steps.flatMap Step.entries

theorem isBound_iff {plan : Plan} {params : List Value} :
    plan.IsBound params ↔ ∀ entry ∈ plan.entries, entry.param < params.length := by
  unfold IsBound entries Step.entries
  rw [List.forall_mem_flatMap]
  refine forall₂_congr fun step hstep => ?_
  cases step.predicate with
  | allEqual fields => simp
  | compare field comparison literal => simp

/-- **The conditions of a plan**, or the first entry in the order of its steps that has no value. -/
theorem conditions_eq (plan : Plan) (params : List Value) :
    plan.conditions params =
      (plan.entries.findSome? (·.failure? params)).elim
        (.ok (plan.steps.map fun step => (step.link, step.condition params))) .error := by
  rw [conditions, mapM_eq_findSome? (Step.resolve_eq params), entries, findSome?_flatMap]

variable {plan : Plan} {query : CompiledQuery} {sorting : Sorting Record}
  {collections : Collections} {params : List Value} {records : List Record}

theorem findSome?_failure?_eq_none_iff :
    plan.entries.findSome? (·.failure? params) = none ↔ plan.IsBound params := by
  rw [List.findSome?_eq_none_iff, isBound_iff]
  exact forall₂_congr fun entry _ => FieldParam.failure?_eq_none_iff

/-! ## The execution of a plan -/

/-- The records that a plan keeps, as they stand in the collection. -/
def kept (plan : Plan) (params : List Value) (records : List Record) : List Record :=
  records.filter (selects (plan.steps.map fun step => (step.link, step.condition params)))

/-- Putting records in order neither loses nor adds one. -/
theorem arrange_perm {sorted : List Record} (h : plan.arrange sorting records = .ok sorted) :
    sorted.Perm records := by
  unfold arrange at h
  split at h
  · split at h
    · rename_i hsort
      obtain rfl := Except.ok.inj h
      exact sorting.perm hsort
    · cases h
  · obtain rfl := Except.ok.inj h
    exact List.Perm.refl _

/-- The rows of a plan: filtered, then put in order, then cut; or the first entry that has no
value. -/
theorem evaluate_eq (hcollection : collections.get? plan.collection = some records) :
    plan.evaluate sorting collections params =
      (plan.entries.findSome? (·.failure? params)).elim
        ((plan.arrange sorting (plan.kept params records)).map plan.cut) .error := by
  rw [evaluate, hcollection]
  dsimp only
  rw [conditions_eq]
  cases plan.entries.findSome? (·.failure? params) with
  | none =>
    dsimp only [Option.elim_none, bind, Except.bind]
    rw [← kept]
    cases plan.arrange sorting (plan.kept params records) <;> rfl
  | some error => rfl

/-- **A plan is evaluated only** if its collection is there and its entries have values. -/
theorem isBound_of_evaluate_eq_ok {rows : List Record}
    (h : plan.evaluate sorting collections params = .ok rows) :
    (∃ records, collections.get? plan.collection = some records) ∧ plan.IsBound params := by
  cases hcollection : collections.get? plan.collection with
  | none =>
    rw [evaluate_unknown hcollection] at h
    cases h
  | some records =>
    refine ⟨⟨records, rfl⟩, findSome?_failure?_eq_none_iff.mp ?_⟩
    rw [evaluate_eq hcollection] at h
    cases hfailure : plan.entries.findSome? (·.failure? params) with
    | none => rfl
    | some error =>
      rw [hfailure] at h
      cases h

/-- The first entry without a value is reported, whatever the records are. -/
theorem evaluate_unbound (hcollection : collections.get? plan.collection = some records)
    {before after : List FieldParam} {entry : FieldParam}
    (hentries : plan.entries = before ++ entry :: after)
    (hbefore : ∀ other ∈ before, other.param < params.length)
    (hentry : params.length ≤ entry.param) :
    plan.evaluate sorting collections params = .error entry.unbound := by
  have hnone : before.findSome? (·.failure? params) = none :=
    List.findSome?_eq_none_iff.mpr fun other hother =>
      FieldParam.failure?_eq_none_iff.mpr (hbefore other hother)
  have hsome : entry.failure? params = some entry.unbound := if_pos hentry
  rw [evaluate_eq hcollection, hentries, List.findSome?_append, hnone, List.findSome?_cons, hsome]
  rfl

/-- The first entry without a value is reported by its number counted from one; behind the greatest
number of 64 bits there is none, and the evaluation panics. -/
theorem execute_unbound (hread : ofText? query.text = some plan)
    (hcollection : collections.get? plan.collection = some records)
    {before after : List FieldParam} {entry : FieldParam}
    (hentries : plan.entries = before ++ entry :: after)
    (hbefore : ∀ other ∈ before, other.param < query.params.length)
    (hentry : query.params.length ≤ entry.param) :
    (entry.param + 1 < UInt64.size → execute sorting collections query =
      .error (.execute ("parameter " ++ toString (entry.param + 1) ++ " is not bound"))) ∧
    (UInt64.size ≤ entry.param + 1 → execute sorting collections query = .error .panic) := by
  rw [execute_eq_evaluate hread, evaluate_unbound hcollection hentries hbefore hentry]
  exact ⟨fun hlt => by rw [FieldParam.unbound_of_lt hlt],
    fun hle => by rw [FieldParam.unbound_of_le hle]⟩

/-- The cut of rows that are no more than a collection has. -/
theorem cut_eq_take {rows : List Record} (h : rows.length ≤ records.length) :
    plan.cut rows = rows.take (plan.limit.getD records.length) := by
  unfold cut
  cases plan.limit with
  | some limit => rfl
  | none => exact (List.take_of_length_le h).symm

/-- The records that are kept stand at places of their own. -/
theorem exists_places_kept (hbound : plan.IsBound params) (records : List Record) :
    ∃ places : List Nat, places.Pairwise (· < ·) ∧
      (∀ place, place ∈ places ↔
        ∃ record, records[place]? = some record ∧ KeptBy params record plan.steps) ∧
      plan.kept params records = places.filterMap (records[·]?) := by
  have hentries : ∀ step ∈ plan.steps, ∀ entry ∈ step.entries, entry.param < params.length :=
    List.forall_mem_flatMap.mp (isBound_iff.mp hbound)
  obtain ⟨places, hsorted, hplaces, hrows⟩ := exists_places (selects (plan.steps.map fun step =>
    (step.link, step.condition params))) records
  refine ⟨places, hsorted, fun place => ?_, hrows⟩
  simp only [hplaces, selects_iff hentries]

/-- The rows of a plan the entries of which have values, when the records that it keeps can be put in
its order. -/
theorem evaluate_of_arrange (hcollection : collections.get? plan.collection = some records)
    (hbound : plan.IsBound params) {arranged : List Record}
    (h : plan.arrange sorting (plan.kept params records) = .ok arranged) :
    plan.evaluate sorting collections params =
      .ok (arranged.take (plan.limit.getD records.length)) := by
  have hlength : arranged.length ≤ records.length :=
    (arrange_perm h).length_eq.trans_le (List.length_filter_le _ _)
  rw [evaluate_eq hcollection, findSome?_failure?_eq_none_iff.mpr hbound, Option.elim_none, h]
  exact congrArg Except.ok (cut_eq_take hlength)

/-- The rows of a plan whose entries have values stand at the places that its steps choose. -/
theorem exists_places_evaluate (horder : plan.orderBy = none)
    (hcollection : collections.get? plan.collection = some records) (hbound : plan.IsBound params) :
    ∃ places : List Nat, places.Pairwise (· < ·) ∧
      (∀ place, place ∈ places ↔
        ∃ record, records[place]? = some record ∧ KeptBy params record plan.steps) ∧
      plan.evaluate sorting collections params =
        .ok ((places.filterMap (records[·]?)).take (plan.limit.getD records.length)) := by
  obtain ⟨places, hsorted, hplaces, hrows⟩ := exists_places_kept hbound records
  refine ⟨places, hsorted, hplaces, evaluate_of_arrange hcollection hbound ?_⟩
  rw [arrange, horder, hrows]

/-- **When a plan without an order is evaluated**: its collection is there, and its entries have
values. -/
theorem exists_evaluate_iff (horder : plan.orderBy = none) :
    (∃ rows, plan.evaluate sorting collections params = .ok rows) ↔
      (∃ records, collections.get? plan.collection = some records) ∧ plan.IsBound params := by
  constructor
  · rintro ⟨rows, hrows⟩
    exact isBound_of_evaluate_eq_ok hrows
  · rintro ⟨⟨records, hcollection⟩, hbound⟩
    obtain ⟨places, -, -, hrows⟩ := exists_places_evaluate horder hcollection hbound
    exact ⟨_, hrows⟩

end Plan

/-! ## The execution by an engine -/

/-- **An engine that executes a query on collections**, for a target. -/
structure Engine.Queries (engine : Engine) (sorting : Sorting Record) (collections : Collections)
    (query : CompiledQuery) (target : Target) : Prop where
  executes : ∃ backend, engine.backend = some backend ∧
    backend.execute = Plan.execute sorting collections
  compiles : (engine.compile {}).1 = .ok query
  output : engine.draft.output = some target

/-- What such an engine delivers are the rows of the query. -/
theorem Engine.Queries.delivery_eq {engine : Engine} {sorting : Sorting Record}
    {collections : Collections} {query : CompiledQuery} {target : Target}
    (h : engine.Queries sorting collections query target) :
    engine.delivery = match Plan.execute sorting collections query with
      | .error cause => .error (.backend cause)
      | .ok rows => .ok (target, rows) := by
  obtain ⟨backend, hbackend, hexecute⟩ := h.executes
  cases hrows : Plan.execute sorting collections query with
  | error cause => simp [delivery, hbackend, h.output, h.compiles, hexecute, hrows]
  | ok rows => simp [delivery, hbackend, h.output, h.compiles, hexecute, hrows]

/-- **The execution of a plan without an order.** The text of a query, whoever wrote it, is read as
this plan. The execution succeeds when the collection is there and all entries have values. Its rows
are then the records that the steps keep when they are taken from the left, each at most once and in
the order of the collection, cut to the limit; the places of these records are those that come out
when the places of each step are united or intersected. Otherwise the missing collection is
reported, or else the first entry without a value by its number counted from one, whatever the
records are; behind the greatest number of 64 bits there is none, and the evaluation panics. An
engine adds the rows to the buffer of its target, and no buffer changes when there are none. -/
theorem Plan.execute_unordered {plan : Plan} {query : CompiledQuery} {sorting : Sorting Record}
    {collections : Collections} (hread : ofText? query.text = some plan)
    (horder : plan.orderBy = none) :
    ((∃ rows, execute sorting collections query = .ok rows) ↔
      (∃ records, collections.get? plan.collection = some records) ∧
        plan.IsBound query.params) ∧
    (∀ records, collections.get? plan.collection = some records → plan.IsBound query.params →
      ∃ places : List Nat, places.Pairwise (· < ·) ∧
        (∀ place, place ∈ places ↔
          ∃ record, records[place]? = some record ∧ KeptBy query.params record plan.steps) ∧
        (∀ place, place ∈ places ↔ place ∈ chosen query.params records plan.steps) ∧
        execute sorting collections query =
          .ok ((places.filterMap (records[·]?)).take (plan.limit.getD records.length))) ∧
    (collections.get? plan.collection = none →
      execute sorting collections query = .error (.unknownCollection plan.collection)) ∧
    (∀ records, collections.get? plan.collection = some records →
      ∀ before entry after, plan.entries = before ++ entry :: after →
        (∀ other ∈ before, other.param < query.params.length) →
        query.params.length ≤ entry.param →
        (entry.param + 1 < UInt64.size → execute sorting collections query =
          .error (.execute ("parameter " ++ toString (entry.param + 1) ++ " is not bound"))) ∧
        (UInt64.size ≤ entry.param + 1 →
          execute sorting collections query = .error .panic)) ∧
    ∀ engine target ledger, Engine.Queries engine sorting collections query target →
      (∀ rows, execute sorting collections query = .ok rows →
        (engine.execute ledger).1 = .ok () ∧
          (engine.execute ledger).2.buffers = ledger.buffers.deliver target.buffer rows) ∧
      ∀ cause, execute sorting collections query = .error cause →
        (engine.execute ledger).1 = .error (.backend cause) ∧
          (engine.execute ledger).2.buffers = ledger.buffers := by
  have hexecute : execute sorting collections query =
      plan.evaluate sorting collections query.params := execute_eq_evaluate hread
  refine ⟨?_, ?_, ?_, ?_, ?_⟩
  · rw [hexecute]
    exact exists_evaluate_iff horder
  · intro records hcollection hbound
    obtain ⟨places, hsorted, hplaces, hrows⟩ :=
      exists_places_evaluate horder hcollection hbound
    refine ⟨places, hsorted, hplaces, fun place => ?_, by rw [hexecute, hrows]⟩
    rw [hplaces]
    constructor
    · rintro ⟨record, hrecord, hkept⟩
      exact (mem_chosen_iff hrecord).mpr hkept
    · intro hchosen
      have hrecord := List.getElem?_eq_getElem (lt_of_mem_chosen hchosen)
      exact ⟨_, hrecord, (mem_chosen_iff hrecord).mp hchosen⟩
  · intro hnone
    rw [hexecute, evaluate_unknown hnone]
  · intro records hcollection before entry after hentries hbefore hentry
    exact execute_unbound hread hcollection hentries hbefore hentry
  · intro engine target ledger hqueries
    have hdelivery := hqueries.delivery_eq
    constructor
    · intro rows hrows
      rw [hrows] at hdelivery
      exact Engine.execute_of_delivery hdelivery ledger
    · intro cause hcause
      rw [hcause] at hdelivery
      exact Engine.execute_of_delivery_error hdelivery ledger

/-- A plan that nobody has compiled: it is executed when its parameter has a value, and else this
is reported, although there is no record. -/
theorem Plan.execute_unordered_match :
    let plan : Plan := ⟨"users",
      [⟨.or, .allEqual [⟨"id", 0⟩]⟩, ⟨.or, .compare "age" .gt (.int 40)⟩], none, some 1⟩
    let text := "\x7b\"limit\": 1, \"collection\": \"users\", \"steps\": [[\"or\", " ++
      "[\"match\", [[\"id\", 0]]]], [\"or\", [\"compare\", \"age\", \"gt\", [\"Int\", 40]]]]\x7d"
    let collections : Collections := .ofList [("users", [])]
    ofText? text = some plan ∧ plan.orderBy = none ∧
      (∃ rows, execute .merge collections ⟨text, [.int 2], false⟩ = .ok rows) ∧
      execute .merge collections ⟨text, [], true⟩ =
        .error (.execute "parameter 1 is not bound") := by
  intro plan text collections
  have hread : ofText? text = some plan := by
    decide +kernel
  have hcollection : collections.get? plan.collection = some [] := rfl
  have hbound : plan.IsBound [.int 2] := isBound_iff.mpr (by decide +kernel)
  obtain ⟨hsuccess, -⟩ :=
    @execute_unordered plan ⟨text, [.int 2], false⟩ .merge collections hread rfl
  obtain ⟨-, -, -, hunbound, -⟩ :=
    @execute_unordered plan ⟨text, [], true⟩ .merge collections hread rfl
  refine ⟨hread, rfl, hsuccess.mpr ⟨⟨[], hcollection⟩, hbound⟩, ?_⟩
  exact (hunbound [] hcollection [] ⟨"id", 0⟩ [] rfl nofun (Nat.le_refl 0)).1 (by decide)

/-- **The greatest parameter** is not reported when it has no value: on a collection that is there
the evaluation panics, however records are sorted. -/
theorem Plan.execute_unordered_greatest :
    let entries : List FieldParam := [⟨"id", 0⟩, ⟨"name", 18446744073709551615⟩]
    let plan : Plan := ⟨"users", [⟨.start, .allEqual entries⟩], none, none⟩
    let text := "\x7b\"collection\": \"users\", \"steps\": [\x7b\"connector\": \"where\", " ++
      "\"predicate\": \x7b\"kind\": \"match\", \"fields\": [" ++
      "\x7b\"field\": \"id\", \"param\": 0\x7d, " ++
      "\x7b\"field\": \"name\", \"param\": 18446744073709551615\x7d]\x7d\x7d]\x7d"
    let collections : Collections := .ofList [("users", [])]
    ofText? text = some plan ∧ plan.orderBy = none ∧
      collections.get? plan.collection = some [] ∧ ¬plan.IsBound [.int 2] ∧
      ∀ sorting, execute sorting collections ⟨text, [.int 2], false⟩ = .error .panic ∧
        ∀ reason, execute sorting collections ⟨text, [.int 2], false⟩ ≠
          .error (.execute reason) := by
  intro entries plan text collections
  have hread : ofText? text = some plan := by decide +kernel
  have hcollection : collections.get? plan.collection = some [] := rfl
  have hentries : plan.entries = [⟨"id", 0⟩] ++ ⟨"name", 18446744073709551615⟩ :: [] := rfl
  have hpanics (sorting : Sorting Record) :
      execute sorting collections ⟨text, [.int 2], false⟩ = .error .panic :=
    (@execute_unbound plan ⟨text, [.int 2], false⟩ sorting collections [] hread hcollection _ _ _
      hentries (by decide) (by decide)).2 (by decide)
  refine ⟨hread, rfl, hcollection, ?_, fun sorting => ⟨hpanics sorting, fun reason => ?_⟩⟩
  · rw [isBound_iff, hentries]
    decide
  · rw [hpanics]
    simp

end ScreenedQuery
