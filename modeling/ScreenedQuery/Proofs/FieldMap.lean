import Mathlib.Data.List.Induction
import Mathlib.Data.List.Sort
import ScreenedQuery.FieldMap

/-!
# What a map is made of

A map is determined by the values of its fields, because its entries are sorted. The map of a list
of pairs gives each field the last value that the list has for it, so two lists in which the last
values are the same make the same map, in whatever order they were written.

## Main definitions

* `lastValue?`: the value that the last pair with a field gives it

## Main results

* `FieldMap.get?_eq_some_iff`: look-ups and entries
* `FieldMap.ext_get?`: maps with the same look-ups are the same
* `FieldMap.get?_ofList`: the last value of a field wins
* `lastValue?_eq_of_perm`: without a field listed twice, the order of the pairs is of no account
-/

namespace ScreenedQuery

variable {α β : Type}

/-! ## Look-ups -/

theorem lookup_of_mem {entries : List (String × α)} (hsorted : entries.Pairwise (·.1 < ·.1))
    {field : String} {value : α} (h : (field, value) ∈ entries) :
    entries.lookup field = some value := by
  induction entries with
  | nil => simp at h
  | cons head entries ih =>
    obtain ⟨hhead, hsorted⟩ := List.pairwise_cons.mp hsorted
    rcases List.mem_cons.mp h with rfl | h
    · exact List.lookup_cons_self
    · -- A field that stands behind is greater than the first one.
      have hne : (field == head.1) = false := by
        have hlt : head.1 < field := hhead _ h
        simpa using fun heq : field = head.1 => String.lt_irrefl _ (heq ▸ hlt)
      rw [List.lookup_cons, hne]
      exact ih hsorted h

theorem mem_of_lookup {entries : List (String × α)} {field : String} {value : α}
    (h : entries.lookup field = some value) : (field, value) ∈ entries := by
  obtain ⟨before, after, rfl, -⟩ := List.lookup_eq_some_iff.mp h
  exact List.mem_append_right _ List.mem_cons_self

namespace FieldMap

/-- A field that a map lists with a value has this value. -/
theorem get?_of_mem {map : FieldMap α} {field : String} {value : α}
    (h : (field, value) ∈ map.entries) : map.get? field = some value :=
  lookup_of_mem map.sorted h

/-- No field is listed twice. -/
theorem keys_nodup (map : FieldMap α) : map.keys.Nodup :=
  map.keys_pairwise.imp fun h => String.ne_of_lt h

/-- **Look-ups and entries** say the same of a map. -/
theorem get?_eq_some_iff {map : FieldMap α} {field : String} {value : α} :
    map.get? field = some value ↔ (field, value) ∈ map.entries :=
  ⟨mem_of_lookup, get?_of_mem⟩

/-- **Maps with the same look-ups are the same.** -/
theorem ext_get? {first second : FieldMap α}
    (h : ∀ field, first.get? field = second.get? field) : first = second := by
  have hentries : first.entries = second.entries := by
    -- Sorted lists with the same members are the same list.
    have : Std.Irrefl fun one other : String × α => one.1 < other.1 :=
      ⟨fun _ => String.lt_irrefl _⟩
    have : Std.Antisymm fun one other : String × α => one.1 < other.1 :=
      ⟨fun _ _ hlt hgt => absurd hgt (String.lt_asymm hlt)⟩
    refine first.sorted.eq_of_mem_iff second.sorted fun entry => ?_
    rw [← get?_eq_some_iff, ← get?_eq_some_iff, h]
  cases first
  cases second
  cases hentries
  rfl

@[simp] theorem get?_map (f : α → β) (map : FieldMap α) (field : String) :
    (map.map f).get? field = (map.get? field).map f := by
  have hlookup (entries : List (String × α)) :
      (entries.map fun entry => (entry.1, f entry.2)).lookup field =
        (entries.lookup field).map f := by
    induction entries with
    | nil => rfl
    | cons entry entries ih =>
      rw [List.map_cons, List.lookup_cons, List.lookup_cons, ih]
      cases field == entry.1 <;> rfl
  exact hlookup map.entries

@[simp] theorem keys_map (f : α → β) (map : FieldMap α) : (map.map f).keys = map.keys := by
  simp [keys, FieldMap.map, Function.comp_def]

end FieldMap

/-! ## Last values -/

/-- **The value that the last pair with a field gives it.** -/
def lastValue? (pairs : List (String × α)) (field : String) : Option α :=
  pairs.reverse.lookup field

theorem lastValue?_append_singleton (pairs : List (String × α)) (last : String × α)
    (field : String) :
    lastValue? (pairs ++ [last]) field =
      if field = last.1 then some last.2 else lastValue? pairs field := by
  rw [lastValue?, List.reverse_append, List.reverse_singleton, List.singleton_append,
    List.lookup_cons]
  by_cases h : field = last.1
  · rw [if_pos h, beq_iff_eq.mpr h]
  · rw [if_neg h, beq_eq_false_iff_ne.mpr h, lastValue?]

/-- The only pair with a field gives it its value. -/
theorem lastValue?_eq_some_iff {pairs : List (String × α)} (hnodup : (pairs.map (·.1)).Nodup)
    {field : String} {value : α} :
    lastValue? pairs field = some value ↔ (field, value) ∈ pairs := by
  induction pairs using List.reverseRecOn with
  | nil => simp [lastValue?]
  | append_singleton pairs last ih =>
    rw [List.map_append, List.nodup_append] at hnodup
    obtain ⟨hnodup, -, hdisjoint⟩ := hnodup
    rw [lastValue?_append_singleton, List.mem_append, List.mem_singleton]
    split
    · -- The last pair has the field, so that no pair in front of it has.
      rename_i heq
      subst heq
      have hnew : (last.1, value) ∉ pairs := fun hmem =>
        hdisjoint last.1 (List.mem_map.mpr ⟨_, hmem, rfl⟩) last.1 (by simp) rfl
      simp [hnew, Prod.ext_iff, eq_comm]
    · rename_i hne
      rw [ih hnodup]
      simp [Prod.ext_iff, hne]

/-- **Where no field is listed twice the order of the pairs is of no account.** -/
theorem lastValue?_eq_of_perm {first second : List (String × α)} (h : first.Perm second)
    (hnodup : (first.map (·.1)).Nodup) (field : String) :
    lastValue? first field = lastValue? second field := by
  have hother : (second.map (·.1)).Nodup := (h.map _).nodup_iff.mp hnodup
  refine Option.ext fun value => ?_
  rw [lastValue?_eq_some_iff hnodup, lastValue?_eq_some_iff hother, h.mem_iff]

namespace FieldMap

theorem ofList_append (first second : List (String × α)) :
    ofList (first ++ second) =
      second.foldl (fun map pair => map.insert pair.1 pair.2) (ofList first) :=
  List.foldl_append

/-- Pairs can be collected in portions. -/
theorem ofList_entries_append (map : FieldMap α) (pairs : List (String × α)) :
    ofList (map.entries ++ pairs) =
      pairs.foldl (fun map pair => map.insert pair.1 pair.2) map := by
  rw [ofList_append, ofList_entries]

/-- **The last value of a field wins.** -/
theorem get?_ofList (pairs : List (String × α)) (field : String) :
    (ofList pairs).get? field = lastValue? pairs field := by
  induction pairs using List.reverseRecOn with
  | nil => rfl
  | append_singleton pairs last ih =>
    rw [ofList_append, lastValue?_append_singleton]
    split
    · rename_i heq
      subst heq
      exact get?_insert_self _ _ _
    · rename_i hne
      rw [← ih]
      exact get?_insert_ne _ _ hne

/-- A field that is listed once has the value it is listed with. -/
theorem get?_ofList_of_mem {pairs : List (String × α)} (hnodup : (pairs.map (·.1)).Nodup)
    {field : String} {value : α} (h : (field, value) ∈ pairs) :
    (ofList pairs).get? field = some value :=
  (get?_ofList pairs field).trans ((lastValue?_eq_some_iff hnodup).mpr h)

end FieldMap

end ScreenedQuery
