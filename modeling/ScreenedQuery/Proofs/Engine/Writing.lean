import ScreenedQuery.Proofs.Engine.Values
import ScreenedQuery.Proofs.FieldMap
import ScreenedQuery.Proofs.Number.Order
import ScreenedQuery.Proofs.Text.ByteOrder

/-!
# How a filter is written down

A filter can be written down by giving values to fields one after the other, and by collecting
pairs. All that is left of this is the last value of each field. So two ways to write with equal
last values make equal filters, and one of them can stand for the other in every fragment.

## Main definitions

* `Writing`: a way to write a filter down
* `Value.Equal`: values that are the same or equal
* `Fragment.Exchanged`: a fragment in which one filter may have been exchanged for another
* `Engine.Synced.Agrees`: two syncs of which nobody can tell the queries apart

## Main results

* `Writing.filter_eq`: a filter is the map of the pairs that it was written with
* `Engine.sync_exchanged`: an equal filter makes an equal query
* `Writing.exchange`: filters with equal last values are equal, and exchangeable
-/

namespace ScreenedQuery

/-! ## Writing a filter -/

/-- **A way to write a filter down.** -/
inductive Writing
  /-- The filter without fields. -/
  | blank
  /-- A field is given a value, in place of the one it had. -/
  | insert (before : Writing) (field : String) (value : Value)
  /-- The entries so far and further pairs are collected. -/
  | collect (before : Writing) (pairs : List (String × Value))

namespace Writing

/-- The filter that is written down. -/
def filter : Writing → Filter
  | blank => .empty
  | insert before field value => before.filter.insert field value
  | collect before pairs => .ofList (before.filter.entries ++ pairs)

/-- The pairs that are written, in their order. -/
def pairs : Writing → List (String × Value)
  | blank => []
  | insert before field value => before.pairs ++ [(field, value)]
  | collect before pairs => before.pairs ++ pairs

/-- The value that is written last for a field. -/
def last? (writing : Writing) (field : String) : Option Value := lastValue? writing.pairs field

/-- **A filter is the map of the pairs that it was written with.** -/
theorem filter_eq (writing : Writing) : writing.filter = .ofList writing.pairs := by
  induction writing with
  | blank => rfl
  | insert before field value ih =>
    rw [filter, pairs, FieldMap.ofList_append, ih]
    rfl
  | collect before pairs ih =>
    rw [filter, Writing.pairs, FieldMap.ofList_entries_append, FieldMap.ofList_append, ih]

theorem get?_filter (writing : Writing) (field : String) :
    writing.filter.get? field = writing.last? field := by
  rw [filter_eq, FieldMap.get?_ofList, last?]

end Writing

/-! ## Equal values -/

namespace Value

/-- **Values that are the same or equal**: what is not a number equals nothing, but is the same as
itself. -/
def Equal (a b : Value) : Prop := a = b ∨ a.same b = true

/-- A value without the sign of a zero. -/
def withoutSignOfZero : Value → Value
  | float x => if x.isZero then float (.zero false) else float x
  | value => value

/-- Only a zero can change. -/
theorem withoutSignOfZero_cases (value : Value) : value.withoutSignOfZero = value ∨
    ∃ x : Binary64, value = float x ∧ x.isZero = true ∧
      value.withoutSignOfZero = float (.zero false) := by
  cases value with
  | float x =>
    cases hx : x.isZero with
    | true => exact .inr ⟨x, rfl, hx, by simp [withoutSignOfZero, hx]⟩
    | false => exact .inl (by simp [withoutSignOfZero, hx])
  | _ => exact .inl rfl

/-- **Equal values** are those that differ in the sign of a zero at most. -/
theorem equal_iff {a b : Value} : a.Equal b ↔ a.withoutSignOfZero = b.withoutSignOfZero := by
  constructor
  · rintro (rfl | hsame)
    · rfl
    · -- Values of two kinds are never the same, and only floats can be the same and not equal.
      cases a <;> cases b <;> simp only [same, Bool.false_eq_true, beq_iff_eq] at hsame
      case float.float x y =>
        cases hx : x.isZero with
        | true =>
          have hy : y.isZero = true :=
            Binary64.isZero_iff_rank.mpr
              ((Binary64.rank_eq_of_equal hsame).symm.trans (Binary64.isZero_iff_rank.mp hx))
          simp [withoutSignOfZero, hx, hy]
        | false => rw [Binary64.eq_of_equal hsame hx]
      all_goals simp [hsame]
  · intro h
    rcases a.withoutSignOfZero_cases with ha | ⟨x, rfl, hx, ha⟩ <;>
      rcases b.withoutSignOfZero_cases with hb | ⟨y, rfl, hy, hb⟩
    · exact .inl (ha.symm.trans (h.trans hb))
    · obtain rfl : a = float (.zero false) := ha.symm.trans (h.trans hb)
      exact .inr (Binary64.equal_of_isZero rfl hy)
    · obtain rfl : b = float (.zero false) := hb.symm.trans (h.symm.trans ha)
      exact .inr (Binary64.equal_of_isZero hx rfl)
    · exact .inr (Binary64.equal_of_isZero hx hy)

theorem withoutSignOfZero_eq_null_iff (value : Value) :
    value.withoutSignOfZero = .null ↔ value = .null := by
  rcases value.withoutSignOfZero_cases with h | ⟨x, rfl, -, h⟩
  · rw [h]
  · simp [h]

end Value

/-! ## Equal maps -/

section

variable {α β : Type} {R : α → α → Prop}

theorem map_eq_of_rel {f : α → β} (hf : ∀ a b, R a b → f a = f b) {one other : Option α}
    (h : Option.Rel R one other) : one.map f = other.map f := by
  cases h with
  | none => rfl
  | some hrel => exact congrArg some (hf _ _ hrel)

namespace FieldMap

variable {first second : FieldMap α}

/-- Maps whose look-ups are related are the same under a function that does not tell related
values apart. -/
theorem map_eq_of_forall_rel {f : α → β} (hf : ∀ a b, R a b → f a = f b)
    (h : ∀ field, Option.Rel R (first.get? field) (second.get? field)) :
    first.map f = second.map f :=
  ext_get? fun field => by rw [get?_map, get?_map, map_eq_of_rel hf (h field)]

/-- Maps whose look-ups are related have the same fields. -/
theorem keys_eq_of_rel (h : ∀ field, Option.Rel R (first.get? field) (second.get? field)) :
    first.keys = second.keys := by
  have hfields : first.map (fun _ => ()) = second.map (fun _ => ()) :=
    map_eq_of_forall_rel (fun _ _ _ => rfl) h
  rw [← keys_map (fun _ => ()) first, hfields, keys_map]

/-- **Maps whose look-ups are related have related entries.** -/
theorem entries_of_rel (h : ∀ field, Option.Rel R (first.get? field) (second.get? field)) :
    List.Forall₂ (fun one other => one.1 = other.1 ∧ R one.2 other.2)
      first.entries second.entries := by
  -- The fields agree place by place, so that a value may be looked up where it stands.
  have hkeys := keys_eq_of_rel h
  refine List.forall₂_iff_get.mpr
    ⟨by simpa [keys] using congrArg List.length hkeys, fun i hfirst hsecond => ?_⟩
  simp only [List.get_eq_getElem]
  have hfield : first.entries[i].1 = second.entries[i].1 := by
    have := congrArg (·[i]?) hkeys
    simpa [keys, hfirst, hsecond] using this
  refine ⟨hfield, ?_⟩
  have hone : first.get? first.entries[i].1 = some first.entries[i].2 :=
    get?_of_mem (List.getElem_mem hfirst)
  have hother : second.get? first.entries[i].1 = some second.entries[i].2 :=
    hfield ▸ get?_of_mem (List.getElem_mem hsecond)
  have hrel := h first.entries[i].1
  rw [hone, hother] at hrel
  exact Option.rel_some_some.mp hrel

/-- Maps with equal values at the same fields are equal. -/
theorem beqWith_of_rel {same : α → α → Bool}
    (h : ∀ field, Option.Rel (fun a b => same a b = true) (first.get? field) (second.get? field)) :
    first.beqWith same second = true := by
  rw [beqWith, Bool.and_eq_true, beq_iff_eq, List.all_eq_true]
  refine ⟨keys_eq_of_rel h, fun pair hpair => ?_⟩
  exact ((List.forall₂_iff_zip.mp (entries_of_rel h)).2 hpair).2

end FieldMap

end

/-! ## Exchanging filters -/

/-- **A fragment in which one filter may have been exchanged for another.** -/
inductive Fragment.Exchanged (first second : Filter) : Fragment → Fragment → Prop
  | kept (fragment : Fragment) : Exchanged first second fragment fragment
  | structured (link : Link) : Exchanged first second (.structured link first)
      (.structured link second)
  | setTarget (target : Target) : Exchanged first second (.setTarget first target)
      (.setTarget second target)

/-- **Two syncs of which nobody can tell the queries apart**: they end in the same way, also in
what an error says, and leave the same clauses, equal parameters and the same texts. -/
structure Engine.Synced.Agrees (one other : Engine.Synced) : Prop where
  outcome : one.outcome = other.outcome
  tally : one.tally = other.tally
  clauses : one.engine.draft.clauses = other.engine.draft.clauses
  params : List.Forall₂ Value.Equal one.engine.draft.params other.engine.draft.params
  plan : (Plan.compile one.engine.draft).map CompiledQuery.text =
    (Plan.compile other.engine.draft).map CompiledQuery.text
  statement : ∀ screen : Screen, (Sql.compile screen one.engine.draft).map CompiledQuery.text =
    (Sql.compile screen other.engine.draft).map CompiledQuery.text

/-- Fragments with a filter exchanged are the same, the signs of zeros apart. -/
theorem Fragment.Exchanged.map_eq {first second : Filter}
    (hfilter : first.map Value.withoutSignOfZero = second.map Value.withoutSignOfZero)
    {fragments others : List Fragment}
    (h : List.Forall₂ (Exchanged first second) fragments others) :
    fragments.map (mapValues Value.withoutSignOfZero) =
      others.map (mapValues Value.withoutSignOfZero) := by
  induction h with
  | nil => rfl
  | cons hhead _ ih =>
    rw [List.map_cons, List.map_cons, ih]
    cases hhead <;> simp only [mapValues, hfilter]

/-- A filter exchanged for itself is kept. -/
theorem Fragment.Exchanged.eq_of_same {filter : Filter} {fragments others : List Fragment}
    (h : List.Forall₂ (Exchanged filter filter) fragments others) : fragments = others := by
  induction h with
  | nil => rfl
  | cons hhead _ ih => cases hhead <;> rw [ih]

/-- **An equal filter makes an equal query.** -/
theorem Engine.sync_exchanged {first second : Filter}
    (hequal : ∀ field, Option.Rel Value.Equal (first.get? field) (second.get? field))
    (engine : Engine) (tally : Tally) {fragments others : List Fragment}
    (h : List.Forall₂ (Fragment.Exchanged first second) fragments others) :
    (engine.sync ⟨fragments⟩ tally).Agrees (engine.sync ⟨others⟩ tally) := by
  have hfilter : first.map Value.withoutSignOfZero = second.map Value.withoutSignOfZero :=
    FieldMap.map_eq_of_forall_rel (fun _ _ => Value.equal_iff.mp) hequal
  obtain ⟨houtcome, hdraft, htally⟩ :=
    engine.sync_of_map_eq (Fragment.Exchanged.map_eq hfilter h) tally
  -- The two drafts differ in their parameters alone, and there in the signs of zeros. A compiler
  -- looks at a parameter only to see whether it is null.
  have hparams := congrArg Draft.params hdraft
  simp only [Draft.mapParams_params] at hparams
  rw [← List.forall₂_eq_eq_eq, List.forall₂_map_left_iff, List.forall₂_map_right_iff] at hparams
  refine ⟨houtcome, htally, by simpa using congrArg Draft.clauses hdraft,
    hparams.imp fun _ _ => Value.equal_iff.mpr, ?_, fun screen => ?_⟩
  · rw [Plan.map_text_compile, Plan.map_text_compile,
      ← Plan.ofDraft_mapParams (f := Value.withoutSignOfZero), hdraft, Plan.ofDraft_mapParams]
  · rw [Sql.map_text_compile, Sql.map_text_compile,
      ← Sql.statement_mapParams Value.withoutSignOfZero_eq_null_iff, hdraft,
      Sql.statement_mapParams Value.withoutSignOfZero_eq_null_iff]

/-- **How a filter was written down is of no account.**

* The fields of a filter are in strictly increasing order of their bytes.
* Pairs in another order have the same last values, unless a field is listed twice.
* If the last values are the same, the filters are the same; if they are equal as values, the
  filters are equal as maps.
* If the last values are the same or equal, then one filter can stand for the other in any
  fragments. If the filters are the same, the syncs are so as well. -/
theorem Writing.exchange (first second : Writing) :
    (first.filter.keys.map bytes).Pairwise (· < ·) ∧
      (first.pairs.Perm second.pairs → (first.pairs.map (·.1)).Nodup →
        ∀ field, first.last? field = second.last? field) ∧
      ((∀ field, first.last? field = second.last? field) → first.filter = second.filter) ∧
      ((∀ field, Option.Rel (fun a b => a.same b = true) (first.last? field)
          (second.last? field)) → first.filter.beqWith Value.same second.filter = true) ∧
      ((∀ field, Option.Rel Value.Equal (first.last? field) (second.last? field)) →
        ∀ (engine : Engine) (tally : Tally) (fragments others : List Fragment),
          List.Forall₂ (Fragment.Exchanged first.filter second.filter) fragments others →
          (engine.sync ⟨fragments⟩ tally).Agrees (engine.sync ⟨others⟩ tally) ∧
            (first.filter = second.filter →
              engine.sync ⟨fragments⟩ tally = engine.sync ⟨others⟩ tally)) := by
  simp only [← get?_filter]
  refine ⟨?_, fun hperm hnodup field => ?_, FieldMap.ext_get?, FieldMap.beqWith_of_rel,
    fun hequal engine tally fragments others h =>
      ⟨engine.sync_exchanged hequal tally h, fun hsame => ?_⟩⟩
  · rw [List.pairwise_map]
    exact first.filter.keys_pairwise.imp fun h => lt_iff_bytes_lt.mp h
  · rw [get?_filter, get?_filter]
    exact lastValue?_eq_of_perm hperm hnodup field
  · rw [hsame] at h
    rw [Fragment.Exchanged.eq_of_same h]

/-- Two flagged fields in both orders: the error names the one that comes first as text. -/
theorem Writing.exchange_flagged :
    let first : Writing := .collect .blank [("id;", .int 7), ("age;", .int 42)]
    let second : Writing := .insert (.insert .blank "age;" (.int 42)) "id;" (.int 7)
    let engine : Engine := { backend := some (Sql.backend {} []) }
    let outcome (filter : Filter) : Except QueryError Unit :=
      (engine.sync ⟨[.find ⟨"users", 0⟩, .structured .start filter]⟩ {}).outcome
    first.pairs.Perm second.pairs ∧ (first.pairs.map (·.1)).Nodup ∧
      first.filter = second.filter ∧
      outcome first.filter = .error (.injection (.structured .start) "age;") ∧
      outcome second.filter = .error (.injection (.structured .start) "age;") := by
  intro first second engine outcome
  obtain ⟨-, hlast, hfilter, -, hexchange⟩ := Writing.exchange first second
  have hperm : first.pairs.Perm second.pairs := List.Perm.swap _ _ _
  have hnodup : (first.pairs.map (·.1)).Nodup := by decide
  have hsame := hlast hperm hnodup
  have hrel (field : String) : Option.Rel Value.Equal (first.last? field) (second.last? field) := by
    rw [hsame field]
    cases second.last? field with
    | none => exact .none
    | some value => exact .some (.inl rfl)
  have hsyncs := (hexchange hrel engine {} [.find ⟨"users", 0⟩, .structured .start first.filter]
    [.find ⟨"users", 0⟩, .structured .start second.filter]
    (.cons (.kept _) (.cons (.structured .start) .nil))).1
  have houtcome : outcome first.filter = .error (.injection (.structured .start) "age;") :=
    rfl
  exact ⟨hperm, hnodup, hfilter hsame, houtcome, hsyncs.outcome.symm.trans houtcome⟩

end ScreenedQuery
