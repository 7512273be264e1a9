import Mathlib.Data.List.Nodup
import Mathlib.Data.List.Perm.Subperm
import ScreenedQuery.Proofs.Plan.Folding
import ScreenedQuery.Proofs.Value.Order

/-!
# The order of a plan

A plan with an order puts the records that its steps keep in this order and cuts them to the limit
afterwards. A record goes before another one by the value of the field; records without the field go
last, or first when greater values do; and records that tie stay in the order of the collection,
whichever way the plan orders.

## Main definitions

* `OrderBy.Precedes`, `OrderBy.Ties`: the order of two records, by the values of the field
* `OrderBy.IsConsistent`: records on which this is a preorder
* `OrderBy.PutsBefore`, `Plan.PutsBefore`: the order of two places of a collection, ties included
* `Plan.ArrangesAt`: the places of the records that a plan keeps, in its order

## Main results

* `pairwise_mergeSort_stable`: sorting keeps what ties in order
* `OrderBy.exists_places_sort`: records in order, by their places
* `Plan.execute_ordered`: the execution of a plan with an order
-/

namespace ScreenedQuery

/-! ## Sorting -/

/-- **Sorting keeps what ties in order**: of two members the first one is at most the second, and
stood before it if the second one is at most the first as well. -/
theorem pairwise_mergeSort_stable {α : Type} [LinearOrder α] {le : α → α → Bool}
    (htrans : ∀ a b c, le a b = true → le b c = true → le a c = true)
    (htotal : ∀ a b, (le a b || le b a) = true) {items : List α} (h : items.Pairwise (· < ·)) :
    (items.mergeSort le).Pairwise fun a b => le a b = true ∧ (le b a = true → a < b) := by
  -- Sorting with the places as a second key does not change the result.
  have hsorted := List.pairwise_mergeSort (List.zipIdxLE_trans htrans)
    (List.zipIdxLE_total htotal) items.zipIdx
  have hnodup : (items.zipIdx.mergeSort (List.zipIdxLE le)).Nodup :=
    (List.mergeSort_perm _ _).nodup_iff.mpr (List.Nodup.of_map Prod.snd (by
      rw [List.zipIdx_map_snd]
      exact List.nodup_range'))
  rw [← List.mergeSort_zipIdx, List.pairwise_map]
  refine (hsorted.and hnodup).imp_of_mem ?_
  rintro ⟨a, i⟩ ⟨b, j⟩ ha hb ⟨hle, hne⟩
  have hi := List.mem_zipIdx_iff_getElem?.mp (List.mem_mergeSort.mp ha)
  have hj := List.mem_zipIdx_iff_getElem?.mp (List.mem_mergeSort.mp hb)
  dsimp only at hi hj ⊢
  unfold List.zipIdxLE at hle
  split at hle
  · rename_i hab
    refine ⟨hab, fun hba => ?_⟩
    rw [if_pos hba, decide_eq_true_eq] at hle
    rcases Nat.lt_or_eq_of_le hle with hlt | rfl
    · obtain ⟨hilt, rfl⟩ := List.getElem?_eq_some_iff.mp hi
      obtain ⟨hjlt, rfl⟩ := List.getElem?_eq_some_iff.mp hj
      exact List.pairwise_iff_getElem.mp h i j hilt hjlt hlt
    · obtain rfl := Option.some.inj (hi.symm.trans hj)
      exact absurd rfl hne
  · cases hle

/-- **Items are sorted by their places.** Take items at increasing places, and an order that is
transitive on them. They are sorted when their places are put into this order, the earlier one of
two that tie first. -/
theorem exists_sorted_places {α : Type} (le : α → α → Bool) {items : List α} {places : List Nat}
    (hplaces : places.Pairwise (· < ·)) (hlt : ∀ place ∈ places, place < items.length)
    (htrans : ∀ i ∈ places, ∀ j ∈ places, ∀ k ∈ places, ∀ a b c, items[i]? = some a →
      items[j]? = some b → items[k]? = some c → le a b = true → le b c = true → le a c = true)
    (htotal : ∀ a b, (le a b || le b a) = true) :
    ∃ sorted : List Nat, sorted.Perm places ∧
      sorted.Pairwise (fun i j => ∃ a b, items[i]? = some a ∧ items[j]? = some b ∧
        le a b = true ∧ (le b a = true → i < j)) ∧
      (places.filterMap (items[·]?)).mergeSort le = sorted.filterMap (items[·]?) := by
  -- The order is transitive on these places only, so it is these that are sorted.
  let item (place : {place // place ∈ places}) : α := items.get ⟨place.1, hlt place.1 place.2⟩
  let before (i j : {place // place ∈ places}) : Bool := le (item i) (item j)
  have hitem : ∀ place, items[place.1]? = some (item place) := fun place =>
    List.getElem?_eq_getElem (hlt place.1 place.2)
  have hbefore : ∀ i j k, before i j = true → before j k = true → before i k = true := by
    intro i j k
    exact htrans i.1 i.2 j.1 j.2 k.1 k.2 _ _ _ (hitem i) (hitem j) (hitem k)
  have hitems : ∀ some : List {place // place ∈ places},
      (some.map Subtype.val).filterMap (items[·]?) = some.map item := by
    intro some
    rw [List.filterMap_map, ← List.filterMap_eq_map]
    exact List.filterMap_congr fun place _ => hitem place
  have hattach : places.attach.Pairwise (· < ·) := by
    have hmap := hplaces
    rw [← List.attach_map_subtype_val places, List.pairwise_map] at hmap
    exact hmap
  refine ⟨(places.attach.mergeSort before).map Subtype.val, ?_, ?_, ?_⟩
  · have hperm := (List.mergeSort_perm places.attach before).map Subtype.val
    rwa [List.attach_map_subtype_val] at hperm
  · rw [List.pairwise_map]
    refine (pairwise_mergeSort_stable hbefore (fun i j => htotal _ _) hattach).imp ?_
    rintro i j ⟨hij, hji⟩
    exact ⟨item i, item j, hitem i, hitem j, hij, hji⟩
  · have hrows := hitems places.attach
    rw [List.attach_map_subtype_val] at hrows
    rw [hrows, hitems, ← List.map_mergeSort (f := item) (r := before) fun i _ j _ => rfl]

/-! ## The order of two records -/

namespace OrderBy

/-- **A record goes before another one**: its value is less, or greater if greater values come
first. A record without the field goes behind all that have it, or else before them. -/
def Precedes (order : OrderBy) (a b : Record) : Prop :=
  match a.get? order.field, b.get? order.field with
  | some x, some y => x.compare y = some (if order.descending then .gt else .lt)
  | some _, none => order.descending = false
  | none, some _ => order.descending = true
  | none, none => False

/-- **Two records tie**: their values are equal or do not compare, or neither has the field. -/
def Ties (order : OrderBy) (a b : Record) : Prop :=
  match a.get? order.field, b.get? order.field with
  | some x, some y => x.compare y = some .eq ∨ x.compare y = none
  | none, none => True
  | _, _ => False

/-- **Records that compare consistently**: with what goes before or ties, the order is transitive.
It is total on any records. -/
def IsConsistent (order : OrderBy) (records : Set Record) : Prop :=
  ∀ a ∈ records, ∀ b ∈ records, ∀ c ∈ records,
    order.Precedes a b ∨ order.Ties a b → order.Precedes b c ∨ order.Ties b c →
      order.Precedes a c ∨ order.Ties a c

/-- **One place goes before another one** in order, and among ties the one that comes first in the
collection. -/
def PutsBefore (order : OrderBy) (records : List Record) (i j : Nat) : Prop :=
  ∃ a b, records[i]? = some a ∧ records[j]? = some b ∧
    (order.Precedes a b ∨ order.Ties a b ∧ i < j)

variable (order : OrderBy) {a b : Record}

theorem compare_eq_lt_iff : order.compare a b = .lt ↔ order.Precedes a b := by
  unfold compare Precedes
  cases a.get? order.field with
  | none => cases b.get? order.field <;> cases order.descending <;> simp
  | some x =>
    cases b.get? order.field with
    | none => cases order.descending <;> simp
    | some y =>
      dsimp only
      cases x.compare y <;> cases order.descending <;> simp

theorem compare_eq_eq_iff : order.compare a b = .eq ↔ order.Ties a b := by
  unfold compare Ties
  cases a.get? order.field with
  | none => cases b.get? order.field <;> cases order.descending <;> simp
  | some x =>
    cases b.get? order.field with
    | none => cases order.descending <;> simp
    | some y =>
      dsimp only
      cases x.compare y <;> cases order.descending <;> simp

theorem compare_swap (a b : Record) : order.compare b a = (order.compare a b).swap := by
  unfold compare
  cases a.get? order.field with
  | none => cases b.get? order.field <;> cases order.descending <;> rfl
  | some x =>
    cases b.get? order.field with
    | none => cases order.descending <;> rfl
    | some y =>
      dsimp only
      rw [Value.compare_swap x y]
      cases x.compare y with
      | none => cases order.descending <;> rfl
      | some ordering => cases order.descending <;> cases ordering <;> rfl

theorem compare_ne_gt_iff :
    (order.compare a b != .gt) = true ↔ order.Precedes a b ∨ order.Ties a b := by
  rw [← compare_eq_lt_iff, ← compare_eq_eq_iff]
  cases order.compare a b <;> decide

instance (order : OrderBy) (a b : Record) : Decidable (order.Precedes a b) :=
  decidable_of_iff _ (compare_eq_lt_iff order)

instance (order : OrderBy) (a b : Record) : Decidable (order.Ties a b) :=
  decidable_of_iff _ (compare_eq_eq_iff order)

instance (order : OrderBy) (records : List Record) (i j : Nat) :
    Decidable (order.PutsBefore records i j) :=
  decidable_of_iff (((records[i]?).any fun a => (records[j]?).any fun b =>
    order.Precedes a b ∨ order.Ties a b ∧ i < j) = true) (by
      simp only [PutsBefore, Option.any_eq_true, decide_eq_true_eq, exists_and_left])

/-- Two places of which each goes before the other are one place. -/
theorem PutsBefore.antisymm {order : OrderBy} {records : List Record} {i j : Nat}
    (h : order.PutsBefore records i j) (h' : order.PutsBefore records j i) : i = j := by
  obtain ⟨a, b, ha, hb, h⟩ := h
  obtain ⟨b', a', hb', ha', h'⟩ := h'
  obtain rfl := Option.some.inj (ha.symm.trans ha')
  obtain rfl := Option.some.inj (hb.symm.trans hb')
  simp only [← compare_eq_lt_iff, ← compare_eq_eq_iff, order.compare_swap b a] at h h'
  cases hordering : order.compare b a with
  | lt => simp [hordering] at h
  | gt => simp [hordering] at h'
  | eq =>
    have hij : i < j := by simpa [hordering] using h
    have hji : j < i := by simpa [hordering] using h'
    omega

/-- What compares consistently is preordered. -/
theorem isPreorderOn_of_isConsistent {records : List Record} {p : Record → Bool}
    (h : order.IsConsistent {record | record ∈ records ∧ p record = true}) :
    IsPreorderOn order.compare (records.filter p) where
  swap := fun a _ b _ => order.compare_swap a b
  trans := by
    intro a ha b hb c hc
    simp only [← bne_iff_ne, compare_ne_gt_iff]
    exact h a (List.mem_filter.mp ha) b (List.mem_filter.mp hb) c (List.mem_filter.mp hc)

/-- **Records in order, by their places.** -/
theorem exists_places_sort (sorting : Sorting Record) {records : List Record} {p : Record → Bool}
    (h : order.IsConsistent {record | record ∈ records ∧ p record = true}) :
    ∃ places : List Nat, places.Nodup ∧
      (∀ place, place ∈ places ↔ ∃ record, records[place]? = some record ∧ p record = true) ∧
      places.Pairwise (order.PutsBefore records) ∧
      sorting.sort order.compare (records.filter p) = some (places.filterMap (records[·]?)) := by
  obtain ⟨places, hincreasing, hplaces, hrows⟩ := Plan.exists_places p records
  have hkept : ∀ place ∈ places, ∀ record, records[place]? = some record →
      record ∈ {record | record ∈ records ∧ p record = true} := by
    intro place hplace record hrecord
    obtain ⟨kept, hkept, hp⟩ := (hplaces place).mp hplace
    obtain rfl := Option.some.inj (hkept.symm.trans hrecord)
    exact ⟨List.mem_of_getElem? hrecord, hp⟩
  have hlt : ∀ place ∈ places, place < records.length := by
    intro place hplace
    obtain ⟨record, hrecord, -⟩ := (hplaces place).mp hplace
    exact (List.getElem?_eq_some_iff.mp hrecord).1
  have htotal : ∀ a b, (order.compare a b != .gt || order.compare b a != .gt) = true := by
    intro a b
    rw [order.compare_swap a b]
    cases order.compare a b <;> rfl
  obtain ⟨sorted, hperm, hsorted, hsort⟩ :=
    exists_sorted_places (fun a b => order.compare a b != .gt) hincreasing hlt (by
      intro i hi j hj k hk a b c ha hb hc
      simp only [compare_ne_gt_iff]
      exact h a (hkept i hi a ha) b (hkept j hj b hb) c (hkept k hk c hc)) htotal
  refine ⟨sorted, hperm.nodup_iff.mpr (hincreasing.imp Nat.ne_of_lt), fun place => ?_, ?_, ?_⟩
  · rw [hperm.mem_iff, hplaces]
  · refine hsorted.imp ?_
    rintro i j ⟨a, b, ha, hb, hab, hba⟩
    refine ⟨a, b, ha, hb, ((compare_ne_gt_iff order).mp hab).imp_right fun hties => ?_⟩
    refine ⟨hties, hba ?_⟩
    rw [← compare_eq_eq_iff] at hties
    rw [order.compare_swap a b, hties]
    rfl
  · rw [sorting.stable (order.isPreorderOn_of_isConsistent h), hrows, hsort]

end OrderBy

namespace Plan

variable {plan : Plan} {query : CompiledQuery} {sorting : Sorting Record}
  {collections : Collections} {params : List Value} {records : List Record}

/-! ## The execution of a plan -/

/-- **One place goes before another one** in a plan: in its order, or else in the collection. -/
def PutsBefore (plan : Plan) (records : List Record) : Nat → Nat → Prop :=
  match plan.orderBy with
  | some order => order.PutsBefore records
  | none => (· < ·)

/-- **The places of the records that a plan keeps**, each once, in the order of the plan. -/
structure ArrangesAt (plan : Plan) (params : List Value) (records : List Record)
    (places : List Nat) : Prop where
  nodup : places.Nodup
  mem_iff : ∀ place, place ∈ places ↔
    ∃ record, records[place]? = some record ∧ KeptBy params record plan.steps
  sorted : places.Pairwise (plan.PutsBefore records)

/-- No more places are kept than there are. -/
theorem ArrangesAt.length_le {params : List Value} {places : List Nat}
    (h : plan.ArrangesAt params records places) : places.length ≤ records.length := by
  have hsubset : places ⊆ List.range records.length := by
    intro place hplace
    obtain ⟨record, hrecord, -⟩ := (h.mem_iff place).mp hplace
    exact List.mem_range.mpr (List.getElem?_eq_some_iff.mp hrecord).1
  have hle := (List.Nodup.subperm h.nodup hsubset).length_le
  rwa [List.length_range] at hle

/-- The records that a plan keeps are put in its order, if they compare consistently when it has
one. -/
theorem exists_arrange (hbound : plan.IsBound params)
    (hconsistent : ∀ order ∈ plan.orderBy,
      order.IsConsistent {record | record ∈ records ∧ KeptBy params record plan.steps}) :
    ∃ places, plan.ArrangesAt params records places ∧
      plan.arrange sorting (plan.kept params records) =
        .ok (places.filterMap (records[·]?)) := by
  have hentries : ∀ step ∈ plan.steps, ∀ entry ∈ step.entries, entry.param < params.length :=
    List.forall_mem_flatMap.mp (isBound_iff.mp hbound)
  -- Without an order the places increase, so that none comes twice.
  cases horder : plan.orderBy with
  | none =>
    obtain ⟨places, hincreasing, hplaces, hrows⟩ := exists_places_kept hbound records
    have hsorted : places.Pairwise (plan.PutsBefore records) := by rwa [PutsBefore, horder]
    refine ⟨places, ⟨hincreasing.imp Nat.ne_of_lt, hplaces, hsorted⟩, ?_⟩
    rw [arrange, horder, hrows]
  | some order =>
    have hkept := hconsistent order horder
    simp only [← selects_iff hentries] at hkept
    obtain ⟨places, hnodup, hplaces, hordered, hsort⟩ := order.exists_places_sort sorting hkept
    simp only [selects_iff hentries] at hplaces
    have hsorted : places.Pairwise (plan.PutsBefore records) := by rwa [PutsBefore, horder]
    refine ⟨places, ⟨hnodup, hplaces, hsorted⟩, ?_⟩
    rw [arrange, horder]
    dsimp only
    rw [kept, hsort]

/-- The rows of a plan, by the places of the records that its steps keep. If the plan has an order,
then these records have to compare consistently. -/
theorem exists_arrangesAt (hcollection : collections.get? plan.collection = some records)
    (hbound : plan.IsBound params)
    (hconsistent : ∀ order ∈ plan.orderBy,
      order.IsConsistent {record | record ∈ records ∧ KeptBy params record plan.steps}) :
    ∃ places, plan.ArrangesAt params records places ∧
      plan.evaluate sorting collections params =
        .ok ((places.filterMap (records[·]?)).take (plan.limit.getD records.length)) := by
  obtain ⟨places, hplaces, harranged⟩ := exists_arrange hbound hconsistent
  exact ⟨places, hplaces, evaluate_of_arrange hcollection hbound harranged⟩

/-- **What a plan can come to** whose entries have values: the records that its steps keep, in
whichever order they are put, cut to the limit; or a panic, if there is an order in which they do not
compare consistently. -/
theorem evaluate_cases (hcollection : collections.get? plan.collection = some records)
    (hbound : plan.IsBound params) :
    (∃ arranged : List Record, arranged.Perm (plan.kept params records) ∧
      plan.evaluate sorting collections params =
        .ok (arranged.take (plan.limit.getD records.length))) ∨
    plan.evaluate sorting collections params = .error .panic ∧
      ∃ order ∈ plan.orderBy,
        ¬order.IsConsistent {record | record ∈ records ∧ KeptBy params record plan.steps} := by
  cases harrange : plan.arrange sorting (plan.kept params records) with
  | ok arranged =>
    exact .inl ⟨arranged, arrange_perm harrange, evaluate_of_arrange hcollection hbound harrange⟩
  | error cause =>
    have hpanic : cause = .panic := by
      unfold arrange at harrange
      split at harrange
      · split at harrange <;> cases harrange
        rfl
      · cases harrange
    refine .inr ⟨?_, ?_⟩
    · rw [evaluate_eq hcollection, findSome?_failure?_eq_none_iff.mpr hbound, Option.elim_none,
        harrange, hpanic]
      rfl
    · by_contra hconsistent
      push Not at hconsistent
      obtain ⟨places, -, harranged⟩ := @exists_arrange plan sorting params records hbound hconsistent
      rw [harrange] at harranged
      cases harranged

/-- **The execution of a plan with an order.** The text of a query, whoever wrote it, is read as
this plan. The execution succeeds only when the collection is there and all entries have values. Let
this be so, and let the records that the steps keep compare consistently. Then it succeeds: they are
put in order first and cut to the limit afterwards, and the rows are the first ones of a list that
has the place of every record that is kept, and no other, once. In this list one place stands in
front of another one when its record goes before the other by the value of the field, or when they
tie and it comes first in the collection; there is one such list only. An engine adds the rows to the
buffer of its target. -/
theorem execute_ordered {order : OrderBy} (hread : ofText? query.text = some plan)
    (horder : plan.orderBy = some order) :
    (∀ rows, execute sorting collections query = .ok rows →
      (∃ records, collections.get? plan.collection = some records) ∧
        plan.IsBound query.params) ∧
    ∀ records, collections.get? plan.collection = some records → plan.IsBound query.params →
      order.IsConsistent {record | record ∈ records ∧ KeptBy query.params record plan.steps} →
      ∃ places : List Nat, places.Nodup ∧
        (∀ place, place ∈ places ↔
          ∃ record, records[place]? = some record ∧ KeptBy query.params record plan.steps) ∧
        places.Pairwise (order.PutsBefore records) ∧
        (∀ others : List Nat, others.Nodup → (∀ place, place ∈ others ↔ place ∈ places) →
          others.Pairwise (order.PutsBefore records) → others = places) ∧
        execute sorting collections query =
          .ok ((places.filterMap (records[·]?)).take (plan.limit.getD records.length)) ∧
        ∀ engine target ledger, Engine.Queries engine sorting collections query target →
          (engine.execute ledger).1 = .ok () ∧
            (engine.execute ledger).2.buffers = ledger.buffers.deliver target.buffer
              ((places.filterMap (records[·]?)).take (plan.limit.getD records.length)) := by
  have hexecute : execute sorting collections query =
      plan.evaluate sorting collections query.params := execute_eq_evaluate hread
  rw [hexecute]
  refine ⟨fun rows => isBound_of_evaluate_eq_ok,
    fun records hcollection hbound hconsistent => ?_⟩
  have hconsistent' : ∀ other ∈ plan.orderBy,
      other.IsConsistent {record | record ∈ records ∧ KeptBy query.params record plan.steps} := by
    intro other hother
    obtain rfl := Option.some.inj (horder.symm.trans hother)
    exact hconsistent
  obtain ⟨places, ⟨hnodup, hplaces, hsorted⟩, hrows⟩ :=
    exists_arrangesAt hcollection hbound hconsistent'
  rw [PutsBefore, horder] at hsorted
  refine ⟨places, hnodup, hplaces, hsorted, fun others hothers hmem hpairwise => ?_, hrows, ?_⟩
  · exact ((List.perm_ext_iff_of_nodup hothers hnodup).mpr hmem).eq_of_pairwise
      (fun i j _ _ => OrderBy.PutsBefore.antisymm) hpairwise hsorted
  · intro engine target ledger hqueries
    have hdelivery := hqueries.delivery_eq
    rw [hexecute, hrows] at hdelivery
    exact Engine.execute_of_delivery hdelivery ledger

/-- Of five people one is not asked for; the others come with greater ages first, the one without an
age in front, and of two that are equally old the first one first. Three of them are delivered. -/
theorem execute_ordered_ages :
    let order : OrderBy := ⟨"age", true⟩
    let plan : Plan := ⟨"people", [⟨.start, .compare "id" .gt (.int 0)⟩], some order, some 3⟩
    let text := "\x7b\"collection\": \"people\", \"order_by\": [\"age\", true], \"limit\": 3, " ++
      "\"steps\": [[\"where\", [\"compare\", \"id\", \"gt\", [\"Int\", 0]]]]\x7d"
    let ada : Record := .ofList [("id", .int 1), ("age", .int 3)]
    let bob : Record := .ofList [("id", .int 2)]
    let cyd : Record := .ofList [("id", .int 3), ("age", .float ⟨0x3FF0000000000000⟩)]
    let dan : Record := .ofList [("id", .int 4), ("age", .int 3)]
    let records : List Record := [.ofList [("id", .int 0), ("age", .int 7)], ada, bob, cyd, dan]
    let collections : Collections := .ofList [("people", records)]
    ofText? text = some plan ∧ plan.orderBy = some order ∧
      order.IsConsistent {record | record ∈ records ∧ KeptBy [] record plan.steps} ∧
      execute .merge collections ⟨text, [], false⟩ = .ok [bob, ada, dan] := by
  intro order plan text ada bob cyd dan records collections
  have hread : ofText? text = some plan := by decide +kernel
  have hcollection : collections.get? plan.collection = some records := rfl
  have hbound : plan.IsBound [] := isBound_iff.mpr nofun
  have hconsistent :
      order.IsConsistent {record | record ∈ records ∧ KeptBy [] record plan.steps} := by
    have htrans : ∀ a ∈ records, ∀ b ∈ records, ∀ c ∈ records,
        (order.compare a b != .gt) = true → (order.compare b c != .gt) = true →
          (order.compare a c != .gt) = true := by
      decide +kernel
    simp only [OrderBy.compare_ne_gt_iff] at htrans
    exact fun a ha b hb c hc => htrans a ha.1 b hb.1 c hc.1
  refine ⟨hread, rfl, hconsistent, ?_⟩
  obtain ⟨places, -, hplaces, -, hunique, hrows, -⟩ :=
    (@execute_ordered plan ⟨text, [], false⟩ .merge collections order hread rfl).2 records hcollection
      hbound hconsistent
  have hmem : ∀ place, place ∈ [2, 1, 4, 3] ↔ place ∈ places := by
    have hkept : ∀ place < 5, place ∈ [2, 1, 4, 3] ↔ ((records[place]?).any fun record =>
        Comparison.gt.holds (record.get? "id") (.int 0)) = true := by
      decide +kernel
    intro place
    rw [hplaces]
    constructor
    · intro hmem
      have hlt : ∀ place ∈ [2, 1, 4, 3], place < 5 := by decide
      exact (Option.any_eq_true _ _).mp ((hkept place (hlt place hmem)).mp hmem)
    · rintro ⟨record, hrecord, hholds⟩
      have hlt : place < 5 := (List.getElem?_eq_some_iff.mp hrecord).1
      exact (hkept place hlt).mpr ((Option.any_eq_true _ _).mpr ⟨record, hrecord, hholds⟩)
  have hsorted : [2, 1, 4, 3].Pairwise (order.PutsBefore records) := by
    decide +kernel
  rw [hrows, ← hunique [2, 1, 4, 3] (by decide) hmem hsorted]
  rfl

end Plan

end ScreenedQuery
