/-!
# Field maps

A field map gives each of its fields one value. The fields are listed in increasing order of their
code points, which is also the order of their UTF-8 bytes, so that what is built from a map does
not depend on how the map was written down.

## Main definitions

* `FieldMap`: fields with values, in increasing order
* `FieldMap.insert`: give a field a value, in place of the one it had
* `FieldMap.ofList`: the map in which the last value of each field wins
* `FieldMap.get?`, `FieldMap.keys`, `FieldMap.size`: what a map holds
* `FieldMap.beqWith`: equality of maps by an equality of values

## Main results

* `FieldMap.keys_pairwise`: no field is listed twice, and the order is increasing
* `FieldMap.get?_insert_self`, `FieldMap.get?_insert_ne`: what insertion does to a look-up
* `FieldMap.ofList_entries`: a map is the map of its entries
-/

namespace ScreenedQuery

/-- The entries of a sorted list with one field given a value. -/
def insertEntry {α : Type} (field : String) (value : α) :
    List (String × α) → List (String × α)
  | [] => [(field, value)]
  | entry :: entries =>
    if field < entry.1 then (field, value) :: entry :: entries
    else if field = entry.1 then (field, value) :: entries
    else entry :: insertEntry field value entries

theorem mem_insertEntry {α : Type} {field : String} {value : α} {entry : String × α} :
    ∀ {entries : List (String × α)},
      entry ∈ insertEntry field value entries → entry = (field, value) ∨ entry ∈ entries
  | [], h => by simpa [insertEntry] using h
  | head :: entries, h => by
    unfold insertEntry at h
    split at h
    · simpa using h
    · split at h
      · rcases List.mem_cons.mp h with h | h
        · exact .inl h
        · exact .inr (List.mem_cons_of_mem _ h)
      · rcases List.mem_cons.mp h with h | h
        · exact .inr (h ▸ List.mem_cons_self)
        · rcases mem_insertEntry h with h | h
          · exact .inl h
          · exact .inr (List.mem_cons_of_mem _ h)

theorem pairwise_insertEntry {α : Type} (field : String) (value : α) :
    ∀ {entries : List (String × α)}, entries.Pairwise (·.1 < ·.1) →
      (insertEntry field value entries).Pairwise (·.1 < ·.1)
  | [], _ => by simp [insertEntry]
  | head :: entries, h => by
    have ⟨hhead, htail⟩ := List.pairwise_cons.mp h
    unfold insertEntry
    split
    · rename_i hlt
      refine List.pairwise_cons.mpr ⟨fun e he => ?_, h⟩
      rcases List.mem_cons.mp he with rfl | he
      · exact hlt
      · exact String.lt_trans hlt (hhead e he)
    · rename_i hnlt
      split
      · rename_i heq
        exact List.pairwise_cons.mpr ⟨fun e he => heq ▸ hhead e he, htail⟩
      · rename_i hne
        refine List.pairwise_cons.mpr ⟨fun e he => ?_, pairwise_insertEntry field value htail⟩
        rcases mem_insertEntry he with rfl | he
        · exact Decidable.by_contra fun h' =>
            hne (String.le_antisymm (String.not_lt.mp h') (String.not_lt.mp hnlt))
        · exact hhead e he

/-- **A map from fields to values**, its fields in increasing order. -/
structure FieldMap (α : Type) where
  entries : List (String × α)
  /-- The fields are in increasing order. -/
  sorted : entries.Pairwise (·.1 < ·.1)
  deriving DecidableEq

namespace FieldMap

variable {α : Type}

def empty : FieldMap α := ⟨[], .nil⟩

instance : Inhabited (FieldMap α) := ⟨empty⟩

/-- Gives a field a value, in place of the one it had. -/
def insert (map : FieldMap α) (field : String) (value : α) : FieldMap α :=
  ⟨insertEntry field value map.entries, pairwise_insertEntry field value map.sorted⟩

/-- The map of the pairs in a list; the last value of a field wins. -/
def ofList (pairs : List (String × α)) : FieldMap α :=
  pairs.foldl (fun map pair => map.insert pair.1 pair.2) empty

/-- The value of a field, if the map has the field. -/
def get? (map : FieldMap α) (field : String) : Option α :=
  map.entries.lookup field

def keys (map : FieldMap α) : List String := map.entries.map (·.1)

def size (map : FieldMap α) : Nat := map.entries.length

/-- Whether the map has no field. -/
def isEmpty (map : FieldMap α) : Bool := map.entries.isEmpty

/-- Applies a function to every value. -/
def map {β : Type} (f : α → β) (map : FieldMap α) : FieldMap β :=
  ⟨map.entries.map fun entry => (entry.1, f entry.2), by
    simpa [List.pairwise_map] using map.sorted⟩

/-- Whether two maps have the same fields, with values that `same` takes as equal. -/
def beqWith (same : α → α → Bool) (a b : FieldMap α) : Bool :=
  a.keys == b.keys && (a.entries.zip b.entries).all fun pair => same pair.1.2 pair.2.2

@[simp] theorem keys_empty : (empty : FieldMap α).keys = [] := rfl

/-- **The fields of a map are strictly increasing**, so none is listed twice. -/
theorem keys_pairwise (map : FieldMap α) : map.keys.Pairwise (· < ·) := by
  simpa [keys, List.pairwise_map] using map.sorted

theorem lookup_insertEntry_self (field : String) (value : α) :
    ∀ entries : List (String × α), (insertEntry field value entries).lookup field = some value
  | [] => by simp [insertEntry]
  | (other, _) :: entries => by
    unfold insertEntry
    split
    · exact List.lookup_cons_self
    · split
      · exact List.lookup_cons_self
      · rename_i hne
        have : (field == other) = false := by simpa using hne
        rw [List.lookup_cons, this]
        exact lookup_insertEntry_self field value entries

/-- A field has the value it was given last. -/
@[simp] theorem get?_insert_self (map : FieldMap α) (field : String) (value : α) :
    (map.insert field value).get? field = some value :=
  lookup_insertEntry_self field value map.entries

theorem lookup_insertEntry_ne {field other : String} (value : α) (h : other ≠ field) :
    ∀ entries : List (String × α),
      (insertEntry field value entries).lookup other = entries.lookup other
  | [] => by
    have hb : (other == field) = false := by simpa using h
    rw [insertEntry, List.lookup_cons, hb]
  | (next, _) :: entries => by
    have hb : (other == field) = false := by simpa using h
    unfold insertEntry
    split
    · rw [List.lookup_cons, hb]
    · split
      · rename_i heq
        subst heq
        rw [List.lookup_cons, List.lookup_cons, hb]
      · rw [List.lookup_cons, List.lookup_cons, lookup_insertEntry_ne value h entries]

/-- Giving a field a value does not touch the others. -/
theorem get?_insert_ne (map : FieldMap α) {field other : String} (value : α) (h : other ≠ field) :
    (map.insert field value).get? other = map.get? other :=
  lookup_insertEntry_ne value h map.entries

/-- A field behind all others is listed last. -/
theorem insertEntry_of_forall_lt {field : String} (value : α) :
    ∀ {entries : List (String × α)}, (∀ entry ∈ entries, entry.1 < field) →
      insertEntry field value entries = entries ++ [(field, value)]
  | [], _ => rfl
  | head :: entries, h => by
    have ⟨hhead, htail⟩ := List.forall_mem_cons.mp h
    have hne : field ≠ head.1 := fun heq => String.lt_irrefl _ (heq ▸ hhead)
    have hnlt : ¬field < head.1 := fun hlt => String.lt_irrefl _ (String.lt_trans hlt hhead)
    rw [insertEntry, if_neg hnlt, if_neg hne, insertEntry_of_forall_lt value htail,
      List.cons_append]

/-- **A map is the map of its entries.** -/
theorem ofList_entries (map : FieldMap α) : ofList map.entries = map := by
  -- The entries are inserted one by one, each behind the ones that are in the map already.
  have hfold : ∀ (rest : List (String × α)) (start : FieldMap α),
      (start.entries ++ rest).Pairwise (·.1 < ·.1) →
      (rest.foldl (fun map pair => map.insert pair.1 pair.2) start).entries =
        start.entries ++ rest := by
    intro rest
    induction rest with
    | nil => intro start _; exact (List.append_nil _).symm
    | cons entry rest ih =>
      intro start hsorted
      have hlast : (start.insert entry.1 entry.2).entries = start.entries ++ [entry] :=
        insertEntry_of_forall_lt entry.2 fun other hother =>
          (List.pairwise_append.mp hsorted).2.2 other hother entry List.mem_cons_self
      rw [List.append_cons, ← hlast] at hsorted
      rw [List.foldl_cons, ih _ hsorted, hlast, List.append_assoc, List.singleton_append]
  have hentries : (ofList map.entries).entries = map.entries := hfold map.entries empty map.sorted
  cases hmap : ofList map.entries with
  | mk entries sorted =>
    rw [hmap] at hentries
    cases hentries
    rfl

/-- The entries of a map are among the pairs that it is made of. -/
theorem mem_of_mem_ofList {pairs : List (String × α)} {entry : String × α}
    (h : entry ∈ (ofList pairs).entries) : entry ∈ pairs := by
  have hfold : ∀ (pairs : List (String × α)) (start : FieldMap α),
      entry ∈ (pairs.foldl (fun map pair => map.insert pair.1 pair.2) start).entries →
      entry ∈ start.entries ∨ entry ∈ pairs := by
    intro pairs
    induction pairs with
    | nil => intro start hstart; exact .inl hstart
    | cons pair pairs ih =>
      intro start hmem
      rcases ih _ hmem with hmem | hmem
      · rcases mem_insertEntry hmem with rfl | hmem
        · exact .inr List.mem_cons_self
        · exact .inl hmem
      · exact .inr (List.mem_cons_of_mem _ hmem)
  rcases hfold pairs empty h with hnil | hpairs
  · exact absurd hnil List.not_mem_nil
  · exact hpairs

end FieldMap

end ScreenedQuery
