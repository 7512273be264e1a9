import Mathlib.Data.Set.Lattice
import Mathlib.Order.CompletePartialOrder
import ScreenedQuery.Proofs.Plan.Folding
import ScreenedQuery.Proofs.Value.Order

/-!
# Comparisons partition a collection

The six comparisons of a field with a literal are told apart by the order of the two values: it is
undefined, or it has one of three outcomes. Therefore every record is either equal or unequal, the
comparisons `<`, `=` and `>` exclude each other, and `<=` and `>=` are what their names say. Null is
equal to null and has no order.

## Main definitions

* `Comparison.mirror`: the comparison with its two sides exchanged
* `Comparison.rows`: the places of the records that are in a comparison with a literal

## Main results

* `Comparison.holds_eq`: a comparison by the order of the two values
* `Comparison.holds_mirror`: a stored value and a literal exchanged
* `Plan.comparisons_partition`: the rows of the six comparisons
-/

namespace ScreenedQuery

namespace Comparison

/-- The comparison with its two sides exchanged. -/
def mirror : Comparison → Comparison
  | lt => gt
  | gt => lt
  | le => ge
  | ge => le
  | eq => eq
  | ne => ne

/-- A comparison that asks for an order. -/
def IsOrdering : Comparison → Prop
  | eq | ne => False
  | _ => True

theorem allows_swap (comparison : Comparison) (ordering : Ordering) :
    comparison.mirror.allows ordering.swap = comparison.allows ordering := by
  cases comparison <;> cases ordering <;> rfl

theorem mirror_eq_ne (comparison : Comparison) :
    (comparison.mirror == ne) = (comparison == ne) := by
  cases comparison <;> rfl

theorem mirror_eq_eq (comparison : Comparison) :
    (comparison.mirror == eq) = (comparison == eq) := by
  cases comparison <;> rfl

/-! ## A stored value and a literal -/

/-- What a comparison makes of the order of two values; without an order they are unequal. -/
def admits (comparison : Comparison) (ordering : Option Ordering) : Bool :=
  ordering.elim (comparison == ne) comparison.allows

theorem admits_swap (comparison : Comparison) (ordering : Option Ordering) :
    comparison.mirror.admits (ordering.map Ordering.swap) = comparison.admits ordering := by
  cases ordering with
  | none => exact mirror_eq_ne comparison
  | some ordering => exact allows_swap comparison ordering

/-- **A comparison by the order of the two values.** Null, which has no order, equals null. -/
theorem holds_eq (comparison : Comparison) (actual : Option Value) (expected : Value) :
    comparison.holds actual expected =
      if actual.getD .null = .null ∧ expected = .null then comparison == eq
      else comparison.admits ((actual.getD .null).compare expected) := by
  unfold holds
  generalize actual.getD .null = value
  split
  · rfl
  · rename_i hne
    rw [if_neg fun h => hne h.2, Value.compare_null_left]
    rfl
  · rename_i hne
    rw [if_neg fun h => hne h.1, Value.compare_null_right]
    rfl
  · rename_i hvalue _ _
    rw [if_neg fun h => hvalue h.1]
    cases value.compare expected <;> rfl

/-- A field that is not there counts as null. -/
theorem holds_getD (comparison : Comparison) (actual : Option Value) (expected : Value) :
    comparison.holds actual expected = comparison.holds (some (actual.getD .null)) expected := by
  cases actual <;> rfl

/-- **A stored value and a literal may be exchanged** when the comparison is mirrored. -/
theorem holds_mirror (comparison : Comparison) (a b : Value) :
    comparison.mirror.holds (some b) a = comparison.holds (some a) b := by
  rw [holds_eq, holds_eq, Option.getD_some, Option.getD_some, Value.compare_swap a b, admits_swap,
    mirror_eq_eq]
  simp only [and_comm]

variable (actual : Option Value) (expected : Value)

/-- What is not equal is unequal. -/
theorem holds_ne : ne.holds actual expected = !eq.holds actual expected := by
  rw [holds_eq, holds_eq]
  split
  · rfl
  · cases (actual.getD .null).compare expected with
    | none => rfl
    | some ordering => cases ordering <;> rfl

/-- Less or equal, unless the literal is null. -/
theorem holds_le (h : expected ≠ .null) :
    le.holds actual expected = (lt.holds actual expected || eq.holds actual expected) := by
  rw [holds_eq, holds_eq, holds_eq, if_neg fun hnull => h hnull.2, if_neg fun hnull => h hnull.2,
    if_neg fun hnull => h hnull.2]
  cases (actual.getD .null).compare expected with
  | none => rfl
  | some ordering => cases ordering <;> rfl

/-- Greater or equal, unless the literal is null. -/
theorem holds_ge (h : expected ≠ .null) :
    ge.holds actual expected = (gt.holds actual expected || eq.holds actual expected) := by
  rw [holds_eq, holds_eq, holds_eq, if_neg fun hnull => h hnull.2, if_neg fun hnull => h hnull.2,
    if_neg fun hnull => h hnull.2]
  cases (actual.getD .null).compare expected with
  | none => rfl
  | some ordering => cases ordering <;> rfl

/-- Nothing is in an order with null. -/
theorem holds_null {comparison : Comparison} (h : comparison.IsOrdering) :
    comparison.holds actual .null = false := by
  rw [holds_eq, Value.compare_null_right]
  cases comparison with
  | eq => exact h.elim
  | ne => exact h.elim
  | _ => exact ite_self _

/-- The comparison that holds for one outcome only. -/
def ofOrdering : Ordering → Comparison
  | .lt => lt
  | .eq => eq
  | .gt => gt

theorem ofOrdering_beq_eq (outcome : Ordering) : (ofOrdering outcome == eq) = (outcome == .eq) := by
  cases outcome <;> rfl

theorem admits_ofOrdering_iff (outcome : Ordering) (ordering : Option Ordering) :
    (ofOrdering outcome).admits ordering = true ↔ ordering = some outcome := by
  cases ordering with
  | none => cases outcome <;> exact iff_of_false nofun nofun
  | some ordering => cases outcome <;> cases ordering <;> decide

/-- **At most one of `<`, `=` and `>` holds.** -/
theorem holds_exclusive {first second : Ordering} (hne : first ≠ second)
    (h : (ofOrdering first).holds actual expected = true) :
    (ofOrdering second).holds actual expected = false := by
  rw [← Bool.not_eq_true]
  intro h'
  rw [holds_eq] at h h'
  split at h
  · -- Two nulls are equal, and in no other comparison.
    rename_i hnull
    rw [if_pos hnull] at h'
    rw [ofOrdering_beq_eq, beq_iff_eq] at h h'
    exact hne (h.trans h'.symm)
  · rename_i hnull
    rw [if_neg hnull] at h'
    rw [admits_ofOrdering_iff] at h h'
    exact hne (Option.some.inj (h.symm.trans h'))

/-! ## The rows of a comparison -/

/-- **The places of the records that are in a comparison** with a literal. -/
def rows (comparison : Comparison) (records : List Record) (field : String) (literal : Value) :
    Set Nat :=
  {place | ∃ record, records[place]? = some record ∧
    comparison.holds (record.get? field) literal = true}

variable {comparison : Comparison} {records : List Record} {field : String} {literal : Value}
  {place : Nat} {record : Record}

theorem mem_rows_iff (h : records[place]? = some record) :
    place ∈ comparison.rows records field literal ↔
      comparison.holds (record.get? field) literal = true := by
  simp [rows, h]

/-- What is not equal is unequal, record by record. -/
theorem rows_ne :
    ne.rows records field literal =
      {place | place < records.length} \ eq.rows records field literal := by
  ext place
  cases hrecord : records[place]? with
  | none =>
    have hle := List.getElem?_eq_none_iff.mp hrecord
    refine iff_of_false ?_ fun h => Nat.not_lt.mpr hle h.1
    rintro ⟨record, hsome, -⟩
    exact nomatch hrecord.symm.trans hsome
  | some record =>
    have hlt := (List.getElem?_eq_some_iff.mp hrecord).1
    rw [Set.mem_sdiff, mem_rows_iff hrecord, mem_rows_iff hrecord, holds_ne]
    simp [hlt]

theorem rows_union {first second third : Comparison}
    (h : ∀ actual, third.holds actual literal =
      (first.holds actual literal || second.holds actual literal)) :
    third.rows records field literal =
      first.rows records field literal ∪ second.rows records field literal := by
  ext place
  constructor
  · rintro ⟨record, hrecord, hholds⟩
    rw [h, Bool.or_eq_true] at hholds
    exact hholds.imp (⟨record, hrecord, ·⟩) (⟨record, hrecord, ·⟩)
  · rintro (⟨record, hrecord, hholds⟩ | ⟨record, hrecord, hholds⟩)
    · exact ⟨record, hrecord, by rw [h, hholds, Bool.true_or]⟩
    · exact ⟨record, hrecord, by rw [h, hholds, Bool.or_true]⟩

theorem rows_null (h : comparison.IsOrdering) : comparison.rows records field .null = ∅ := by
  rw [Set.eq_empty_iff_forall_notMem]
  rintro place ⟨record, -, hholds⟩
  rw [holds_null _ h] at hholds
  cases hholds

theorem disjoint_rows (first second : Ordering) (hne : first ≠ second) :
    Disjoint ((ofOrdering first).rows records field literal)
      ((ofOrdering second).rows records field literal) := by
  rw [Set.disjoint_left]
  rintro place ⟨record, hrecord, hfirst⟩ hsecond
  rw [mem_rows_iff hrecord, holds_exclusive _ _ hne hfirst] at hsecond
  cases hsecond

/-- A record without the field may as well hold null there. -/
theorem rows_set_null (hrecord : records[place]? = some record)
    (hmissing : record.get? field = none) :
    comparison.rows (records.set place (record.insert field .null)) field literal =
      comparison.rows records field literal := by
  have hlt := (List.getElem?_eq_some_iff.mp hrecord).1
  ext other
  by_cases hother : place = other
  · subst hother
    have hset : (records.set place (record.insert field .null))[place]? =
        some (record.insert field .null) := List.getElem?_set_self hlt
    rw [mem_rows_iff hset, mem_rows_iff hrecord, FieldMap.get?_insert_self, hmissing, holds_none]
  · unfold rows
    simp only [Set.mem_ofPred_eq, List.getElem?_set_ne hother]

/-- The value of a record and the literal may be exchanged. -/
theorem mem_rows_mirror {value : Value} (hrecord : records[place]? = some record)
    (hvalue : (record.get? field).getD .null = value) :
    place ∈ comparison.mirror.rows (records.set place (record.insert field literal)) field value ↔
      place ∈ comparison.rows records field literal := by
  have hlt := (List.getElem?_eq_some_iff.mp hrecord).1
  have hset : (records.set place (record.insert field literal))[place]? =
      some (record.insert field literal) := List.getElem?_set_self hlt
  rw [mem_rows_iff hset, mem_rows_iff hrecord, FieldMap.get?_insert_self, holds_mirror,
    ← hvalue, ← holds_getD]

end Comparison

namespace Plan

variable {sorting : Sorting Record} {collections : Collections} {records : List Record}
  {query : CompiledQuery}

/-- **The rows of a plan with one comparison** stand at the places of the comparison. -/
theorem execute_comparison {name field : String} {link : Link} {comparison : Comparison}
    {literal : Value}
    (hread : ofText? query.text =
      some ⟨name, [⟨link, .compare field comparison literal⟩], none, none⟩)
    (hcollection : collections.get? name = some records) :
    ∃ places : List Nat, places.Pairwise (· < ·) ∧
      (∀ place, place ∈ places ↔ place ∈ comparison.rows records field literal) ∧
      execute sorting collections query = .ok (places.filterMap (records[·]?)) := by
  have hevaluate : execute sorting collections query =
      .ok (records.filter fun record => comparison.holds (record.get? field) literal) := by
    rw [execute_eq_evaluate hread, evaluate, hcollection]
    rfl
  obtain ⟨places, hsorted, hplaces, hrows⟩ :=
    exists_places (fun record : Record => comparison.holds (record.get? field) literal) records
  exact ⟨places, hsorted, hplaces, by rw [hevaluate, hrows]⟩

/-- **The rows of the six comparisons.** Take any collection, field and literal, and for each
comparison the plan that has nothing but this comparison, whatever its link is. It delivers, in the
order of the collection, the records at the places of the comparison, once each. Of these places:

* those of `!=` are all that are not places of `=`;
* `<`, `=` and `>` have no place in common;
* those of `<=` are the places of `<` and `=`, and those of `>=` the places of `>` and `=`, unless
  the literal is null, for which none of the four orders has a place;
* a record without the field is treated as if it held null there;
* when the value of a record and the literal are exchanged, the mirrored comparison has the record's
  place exactly if the comparison had it.

The order of two values is reversed when they are exchanged, and undefined together with that;
values that are equal compare as equal, null apart; and values that compare as equal are equal or
are an integer and a float. -/
theorem comparisons_partition (records : List Record) (field : String) (literal : Value) :
    (∀ sorting collections query name link comparison,
      ofText? query.text = some ⟨name, [⟨link, .compare field comparison literal⟩], none, none⟩ →
      FieldMap.get? collections name = some records →
        ∃ places : List Nat, places.Pairwise (· < ·) ∧
          (∀ place, place ∈ places ↔ place ∈ comparison.rows records field literal) ∧
          execute sorting collections query = .ok (places.filterMap (records[·]?))) ∧
    Comparison.ne.rows records field literal =
      {place | place < records.length} \ Comparison.eq.rows records field literal ∧
    Disjoint (Comparison.lt.rows records field literal)
      (Comparison.eq.rows records field literal) ∧
    Disjoint (Comparison.eq.rows records field literal)
      (Comparison.gt.rows records field literal) ∧
    Disjoint (Comparison.lt.rows records field literal)
      (Comparison.gt.rows records field literal) ∧
    (literal ≠ .null →
      Comparison.le.rows records field literal =
        Comparison.lt.rows records field literal ∪ Comparison.eq.rows records field literal ∧
      Comparison.ge.rows records field literal =
        Comparison.gt.rows records field literal ∪ Comparison.eq.rows records field literal) ∧
    (literal = .null → ∀ comparison : Comparison, comparison.IsOrdering →
      comparison.rows records field literal = ∅) ∧
    (∀ (comparison : Comparison) place record, records[place]? = some record →
      record.get? field = none →
        comparison.rows (records.set place (record.insert field .null)) field literal =
          comparison.rows records field literal) ∧
    (∀ (comparison : Comparison) place record value, records[place]? = some record →
      (record.get? field).getD .null = value →
        (place ∈ comparison.mirror.rows (records.set place (record.insert field literal)) field
            value ↔
          place ∈ comparison.rows records field literal)) ∧
    ∀ a b : Value, b.compare a = (a.compare b).map Ordering.swap ∧
      (a.same b = true → a ≠ .null → a.compare b = some .eq) ∧
      (a.compare b = some .eq → a.same b = true ∨ a.AreMixed b) := by
  refine ⟨?_, Comparison.rows_ne, Comparison.disjoint_rows .lt .eq nofun,
    Comparison.disjoint_rows .eq .gt nofun, Comparison.disjoint_rows .lt .gt nofun,
    ?_, ?_, ?_, ?_, ?_⟩
  · intro sorting collections query name link comparison hread hcollection
    exact execute_comparison hread hcollection
  · intro hnull
    exact ⟨Comparison.rows_union (Comparison.holds_le · literal hnull),
      Comparison.rows_union (Comparison.holds_ge · literal hnull)⟩
  · rintro rfl comparison hordering
    exact Comparison.rows_null hordering
  · intro comparison place record hrecord hmissing
    exact Comparison.rows_set_null hrecord hmissing
  · intro comparison place record value hrecord hvalue
    exact Comparison.mem_rows_mirror hrecord hvalue
  · intro a b
    refine ⟨Value.compare_swap a b, fun hsame hnull => ?_, fun hequal => ?_⟩
    · exact (Value.compare_eq_some_eq_iff hnull (Value.not_areMixed_of_same hsame)).mpr hsame
    · by_cases hmixed : a.AreMixed b
      · exact .inr hmixed
      · have hnull : a ≠ .null := by
          rintro rfl
          exact nomatch (Value.compare_null_left b).symm.trans hequal
        exact .inl ((Value.compare_eq_some_eq_iff hnull hmixed).mp hequal)

/-- Ages that are at most three, of a record with a lesser one, one with three as a float, one
without an age and one with null; and the first one with its value and the literal exchanged. -/
theorem comparisons_partition_age :
    let records : List Record := [.ofList [("age", .int 2)],
      .ofList [("age", .float ⟨0x4008000000000000⟩)], .empty, .ofList [("age", .null)]]
    let text := "\x7b\"collection\": \"users\", \"steps\": [[\"or\", " ++
      "[\"compare\", \"age\", \"le\", [\"Int\", 3]]]]\x7d"
    let collections : Collections := .ofList [("users", records)]
    (∃ places : List Nat, places.Pairwise (· < ·) ∧ 0 ∈ places ∧ 1 ∈ places ∧ 2 ∉ places ∧
        execute .merge collections ⟨text, [], false⟩ = .ok (places.filterMap (records[·]?))) ∧
      Comparison.le.rows records "age" (.int 3) =
        Comparison.lt.rows records "age" (.int 3) ∪ Comparison.eq.rows records "age" (.int 3) ∧
      Comparison.ge.rows records "age" .null = ∅ ∧
      Comparison.eq.rows (records.set 2 (FieldMap.insert .empty "age" .null)) "age" .null =
        Comparison.eq.rows records "age" .null ∧
      0 ∈ Comparison.ge.rows (records.set 0 (FieldMap.insert (.ofList [("age", .int 2)]) "age"
        (.int 3))) "age" (.int 2) := by
  intro records text collections
  have hread : ofText? text =
      some ⟨"users", [⟨.or, .compare "age" .le (.int 3)⟩], none, none⟩ := by
    decide +kernel
  have hcollection : collections.get? "users" = some records := rfl
  obtain ⟨hexecute, -, -, -, -, hunion, -, -, hmirror, -⟩ :=
    comparisons_partition records "age" (.int 3)
  obtain ⟨-, -, -, -, -, -, hnull, hmissing, -⟩ := comparisons_partition records "age" .null
  obtain ⟨places, hsorted, hplaces, hrows⟩ :=
    hexecute .merge collections ⟨text, [], false⟩ "users" .or .le hread hcollection
  have hfirst : 0 ∈ Comparison.le.rows records "age" (.int 3) := ⟨_, rfl, by decide +kernel⟩
  have hsecond : 1 ∈ Comparison.le.rows records "age" (.int 3) := ⟨_, rfl, by decide +kernel⟩
  have hthird : 2 ∉ Comparison.le.rows records "age" (.int 3) := by
    rintro ⟨record, hrecord, hholds⟩
    obtain rfl : FieldMap.empty = record := Option.some.inj hrecord
    exact absurd hholds (by decide +kernel)
  refine ⟨⟨places, hsorted, (hplaces 0).mpr hfirst, (hplaces 1).mpr hsecond,
    fun hmem => hthird ((hplaces 2).mp hmem), hrows⟩, (hunion nofun).1, hnull rfl .ge trivial,
    hmissing .eq 2 .empty rfl rfl, ?_⟩
  exact (hmirror .le 0 (.ofList [("age", .int 2)]) (.int 2) rfl rfl).mpr hfirst

end Plan

end ScreenedQuery
