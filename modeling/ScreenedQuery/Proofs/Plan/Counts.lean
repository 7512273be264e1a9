import ScreenedQuery.Proofs.Plan.Ordering
import ScreenedQuery.Proofs.Value.Encoding

/-!
# The counts in a plan

The text of a plan may give a parameter any number of 64 bits, and so it may the limit. A limit that
is no less than the number of records that are kept keeps all of them. A parameter without a value
is reported by its number counted from one; for the greatest number there is no such number of 64
bits, and the evaluation panics.

## Main results

* `Plan.counts_lt`: the counts of a plan that is read
* `Plan.execute_counts`: the execution of a plan with any counts
-/

namespace ScreenedQuery

/-! ## The range of the counts -/

theorem FieldParam.lt_of_ofJson? {json : Json} {entry : FieldParam}
    (h : ofJson? json = some entry) : entry.param < UInt64.size := by
  simp only [ofJson?, Option.bind_eq_bind, Option.bind_eq_some_iff] at h
  obtain ⟨parts, -, field, -, param, hparam, h⟩ := h
  cases h
  obtain ⟨part, -, hread⟩ := Json.exists_mem_of_required hparam
  exact Json.lt_of_toSize? hread

theorem Predicate.lt_of_ofParts? {kind : String} {json : Json} {fields : List FieldParam}
    (h : ofParts? kind json = some (allEqual fields)) :
    ∀ entry ∈ fields, entry.param < UInt64.size := by
  intro entry hentry
  unfold ofParts? at h
  split at h
  · simp only [Option.bind_eq_bind, Option.bind_eq_some_iff] at h
    obtain ⟨parts, -, read, hread, h⟩ := h
    cases h
    obtain ⟨part, -, hread⟩ := Json.exists_mem_of_required hread
    obtain ⟨items, -, item, -, hitem⟩ := Json.exists_mem_of_toList? hread hentry
    exact FieldParam.lt_of_ofJson? hitem
  · -- A comparison has no entries.
    simp only [Option.bind_eq_bind, Option.bind_eq_some_iff] at h
    obtain ⟨parts, -, field, -, comparison, -, literal, -, h⟩ := h
    cases h
  · cases h

theorem Predicate.lt_of_ofJson? {json : Json} {fields : List FieldParam}
    (h : ofJson? json = some (allEqual fields)) :
    ∀ entry ∈ fields, entry.param < UInt64.size := by
  unfold ofJson? at h
  split at h
  · cases h
  · split at h
    · exact lt_of_ofParts? h
    · split at h
      · exact lt_of_ofParts? h
      · cases h
    · cases h

theorem Step.lt_of_ofJson? {json : Json} {step : Step} (h : ofJson? json = some step) :
    ∀ entry ∈ step.entries, entry.param < UInt64.size := by
  simp only [ofJson?, Option.bind_eq_bind, Option.bind_eq_some_iff] at h
  obtain ⟨parts, -, link, -, predicate, hpredicate, h⟩ := h
  cases h
  obtain ⟨part, -, hread⟩ := Json.exists_mem_of_required hpredicate
  cases predicate with
  | allEqual fields => exact Predicate.lt_of_ofJson? hread
  | compare field comparison literal =>
    intro entry hentry
    cases hentry

/-- The counts of a plan that is read fit 64 bits. -/
theorem Plan.counts_lt {text : String} {plan : Plan} (h : ofText? text = some plan) :
    (∀ entry ∈ plan.entries, entry.param < UInt64.size) ∧
      ∀ limit ∈ plan.limit, limit < UInt64.size := by
  obtain ⟨json, -, h⟩ := Option.bind_eq_some_iff.mp h
  simp only [ofJson?, Option.bind_eq_bind, Option.bind_eq_some_iff] at h
  obtain ⟨parts, -, collection, -, steps, hsteps, orderBy, -, limit, hlimit, h⟩ := h
  cases h
  constructor
  · refine List.forall_mem_flatMap.mpr fun step hstep => ?_
    obtain ⟨part, -, hread⟩ := Json.exists_mem_of_required hsteps
    obtain ⟨items, -, item, -, hitem⟩ := Json.exists_mem_of_toList? hread hstep
    exact Step.lt_of_ofJson? hitem
  · rintro n rfl
    obtain ⟨json, hread⟩ := Json.exists_of_nullable hlimit
    exact Json.lt_of_toSize? hread

/-! ## The execution of a plan -/

namespace Plan

variable {plan : Plan} {query : CompiledQuery} {sorting : Sorting Record}
  {collections : Collections} {records : List Record}

/-- **The execution of a plan with any counts**, whoever wrote its text, on a collection that is
there. Its parameters and its limit fit 64 bits, and no others are read. It succeeds only if all
parameters have values. Else the first one without a value is reported, by its number counted from
one; only for the greatest number of 64 bits the evaluation panics.

Let all parameters have values. Then the rows are the first ones of the records that are kept, in
whichever order these are put, and any limit that is no less than their number, up to the greatest
one, keeps all of them; the evaluation panics only if the plan has an order in which these records
do not compare consistently. If they do, or if there is no order, then it succeeds, and the rows
stand in the order of the plan. -/
theorem execute_counts (hread : ofText? query.text = some plan)
    (hcollection : collections.get? plan.collection = some records) :
    ((∀ entry ∈ plan.entries, entry.param < UInt64.size) ∧
      ∀ limit ∈ plan.limit, limit < UInt64.size) ∧
    (∀ rows, execute sorting collections query = .ok rows → plan.IsBound query.params) ∧
    (∀ before entry after, plan.entries = before ++ entry :: after →
      (∀ other ∈ before, other.param < query.params.length) →
      query.params.length ≤ entry.param →
      (entry.param + 1 < UInt64.size → execute sorting collections query =
        .error (.execute ("parameter " ++ toString (entry.param + 1) ++ " is not bound"))) ∧
      (entry.param + 1 = UInt64.size →
        execute sorting collections query = .error .panic)) ∧
    (plan.IsBound query.params →
      (∃ places : List Nat, places.Nodup ∧
        (∀ place, place ∈ places ↔
          ∃ record, records[place]? = some record ∧ KeptBy query.params record plan.steps) ∧
        ((∃ arranged : List Record, arranged.Perm (places.filterMap (records[·]?)) ∧
            execute sorting collections query =
              .ok (arranged.take (plan.limit.getD records.length)) ∧
            ∀ limit, plan.limit = some limit → places.length ≤ limit →
              execute sorting collections query = .ok arranged) ∨
          execute sorting collections query = .error .panic ∧
            ∃ order ∈ plan.orderBy, ¬order.IsConsistent
              {record | record ∈ records ∧ KeptBy query.params record plan.steps})) ∧
      ((∀ order ∈ plan.orderBy, order.IsConsistent
          {record | record ∈ records ∧ KeptBy query.params record plan.steps}) →
        ∃ places, plan.ArrangesAt query.params records places ∧
          execute sorting collections query =
            .ok ((places.filterMap (records[·]?)).take (plan.limit.getD records.length)) ∧
          ∀ limit, plan.limit = some limit → places.length ≤ limit →
            execute sorting collections query = .ok (places.filterMap (records[·]?)))) := by
  have hexecute : execute sorting collections query =
      plan.evaluate sorting collections query.params := execute_eq_evaluate hread
  refine ⟨counts_lt hread, fun rows hrows => ?_,
    fun before entry after hentries hbefore hentry => ?_, fun hbound => ?_⟩
  · rw [hexecute] at hrows
    exact (isBound_of_evaluate_eq_ok hrows).2
  · exact (execute_unbound hread hcollection hentries hbefore hentry).imp_right
      fun hpanics hgreatest => hpanics hgreatest.ge
  rw [hexecute]
  refine ⟨?_, fun hconsistent => ?_⟩
  · obtain ⟨places, hincreasing, hplaces, hkept⟩ := exists_places_kept hbound records
    refine ⟨places, hincreasing.imp Nat.ne_of_lt, hplaces, ?_⟩
    rw [← hkept]
    refine (evaluate_cases hcollection hbound).imp_left ?_
    rintro ⟨arranged, hperm, hrows⟩
    refine ⟨arranged, hperm, hrows, fun limit hlimit hle => ?_⟩
    have hlength : arranged.length ≤ limit := by
      rw [hperm.length_eq, hkept]
      exact (List.length_filterMap_le _ _).trans hle
    rw [hrows, hlimit, Option.getD_some, List.take_of_length_le hlength]
  · obtain ⟨places, hplaces, hrows⟩ := exists_arrangesAt hcollection hbound hconsistent
    refine ⟨places, hplaces, hrows, fun limit hlimit hle => ?_⟩
    have hlength : (places.filterMap (records[·]?)).length ≤ limit :=
      (List.length_filterMap_le _ _).trans hle
    rw [hrows, hlimit, Option.getD_some, List.take_of_length_le hlength]

/-- The greatest limit keeps every user; and the greatest parameter but one, which has no value, is
reported by its number. -/
theorem execute_counts_largest :
    let adults : Plan := ⟨"users", [⟨.start, .compare "age" .ge (.int 18)⟩], none,
      some 18446744073709551615⟩
    let named : Plan := ⟨"users", [⟨.start, .allEqual [⟨"name", 18446744073709551614⟩]⟩], none,
      none⟩
    let adultsText := "\x7b\"collection\": \"users\", \"limit\": 18446744073709551615, " ++
      "\"steps\": [[\"where\", [\"compare\", \"age\", \"ge\", [\"Int\", 18]]]]\x7d"
    let namedText := "\x7b\"collection\": \"users\", \"steps\": " ++
      "[[\"where\", [\"match\", [[\"name\", 18446744073709551614]]]]]\x7d"
    let records : List Record := [.ofList [("age", .int 20)], .ofList [("age", .int 7)]]
    let collections : Collections := .ofList [("users", records)]
    ofText? adultsText = some adults ∧ ofText? namedText = some named ∧
      collections.get? "users" = some records ∧
      (∃ places, adults.ArrangesAt [] records places ∧
        execute .merge collections ⟨adultsText, [], false⟩ =
          .ok (places.filterMap (records[·]?))) ∧
      execute .merge collections ⟨namedText, [], false⟩ =
        .error (.execute "parameter 18446744073709551615 is not bound") := by
  intro adults named adultsText namedText records collections
  have hadults : ofText? adultsText = some adults := by decide +kernel
  have hnamed : ofText? namedText = some named := by decide +kernel
  have hcollection : collections.get? "users" = some records := rfl
  obtain ⟨-, -, -, hkept⟩ :=
    @execute_counts adults ⟨adultsText, [], false⟩ .merge collections records hadults hcollection
  obtain ⟨-, -, hunbound, -⟩ :=
    @execute_counts named ⟨namedText, [], false⟩ .merge collections records hnamed hcollection
  refine ⟨hadults, hnamed, hcollection, ?_, ?_⟩
  · obtain ⟨places, hplaces, -, hall⟩ := (hkept (isBound_iff.mpr nofun)).2 nofun
    have hle : places.length ≤ 18446744073709551615 :=
      hplaces.length_le.trans (Nat.le_of_ble_eq_true rfl)
    exact ⟨places, hplaces, hall _ rfl hle⟩
  · exact (hunbound [] ⟨"name", 18446744073709551614⟩ [] rfl nofun (Nat.zero_le _)).1 (by decide)

/-- **The greatest parameter**: when it has no value the evaluation panics, and nothing is
reported, although there is a number behind it. -/
theorem execute_counts_greatest :
    let entry : FieldParam := ⟨"id", 18446744073709551615⟩
    let plan : Plan := ⟨"users", [⟨.start, .allEqual [entry]⟩], none, none⟩
    let text := "\x7b\"collection\": \"users\", \"steps\": [\x7b\"connector\": \"where\", " ++
      "\"predicate\": \x7b\"kind\": \"match\", \"fields\": [\x7b\"field\": \"id\", " ++
      "\"param\": 18446744073709551615\x7d]\x7d\x7d]\x7d"
    let collections : Collections := .ofList [("users", [.ofList [("id", .int 1)]])]
    ofText? text = some plan ∧
      ∀ sorting, execute sorting collections ⟨text, [], false⟩ = .error .panic ∧
        execute sorting collections ⟨text, [], false⟩ ≠
          .error (.execute ("parameter " ++ toString (entry.param + 1) ++ " is not bound")) := by
  intro entry plan text collections
  have hread : ofText? text = some plan := by decide +kernel
  have hentries : plan.entries = [] ++ entry :: [] := rfl
  have hpanics (sorting : Sorting Record) :
      execute sorting collections ⟨text, [], false⟩ = .error .panic :=
    (@execute_unbound plan ⟨text, [], false⟩ sorting collections _ hread rfl _ _ _ hentries
      (by simp) (Nat.zero_le _)).2 (by decide)
  refine ⟨hread, fun sorting => ⟨hpanics sorting, ?_⟩⟩
  rw [hpanics]
  simp

end Plan

end ScreenedQuery
