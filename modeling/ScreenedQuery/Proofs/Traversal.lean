import Mathlib.Data.List.Forall2

/-!
# What is done for all items

Steps that may fail, taken one after the other or for every item of a list: when all of them
succeed, and which failure is the answer otherwise.

## Main results

* `mapM_eq_some_iff`, `mapM_eq_ok_iff`: all items succeed, one by one
* `mapM_eq_findSome?`: all items succeed, or the first failure is the answer
* `foldlM_eq_error_iff`: the first failure of a fold whose steps fail whatever came before
-/

namespace ScreenedQuery

variable {ε α β : Type}

/-! ## Steps without a reason for failing -/

theorem mapM_eq_some_iff {f : α → Option β} {xs : List α} {ys : List β} :
    xs.mapM f = some ys ↔ List.Forall₂ (fun x y => f x = some y) xs ys := by
  induction xs generalizing ys with
  | nil => simp [eq_comm]
  | cons x xs ih =>
    rw [List.mapM_cons, List.forall₂_cons_left_iff]
    simp [Option.bind_eq_some_iff, ih, eq_comm (a := ys)]

/-- An item that is read was read from one of the items. -/
theorem exists_mem_of_mapM {read : α → Option β} {items : List α} {results : List β}
    (h : items.mapM read = some results) {result : β} (hresult : result ∈ results) :
    ∃ item ∈ items, read item = some result := by
  -- The results stand beside their items, so the induction is on the pairs.
  induction mapM_eq_some_iff.mp h with
  | nil => exact absurd hresult List.not_mem_nil
  | @cons item first items results hfirst hrest ih =>
    rcases List.mem_cons.mp hresult with rfl | hresult
    · exact ⟨item, List.mem_cons_self, hfirst⟩
    · obtain ⟨other, hother, hread⟩ := ih (mapM_eq_some_iff.mpr hrest) hresult
      exact ⟨other, List.mem_cons_of_mem _ hother, hread⟩

/-! ## Steps with a reason -/

theorem bind_eq_ok {first : Except ε α} {next : α → Except ε β} {b : β}
    (h : (first >>= next) = .ok b) : ∃ a, first = .ok a ∧ next a = .ok b := by
  cases first with
  | error error => exact nomatch h
  | ok a => exact ⟨a, rfl, h⟩

theorem bind_eq_error_iff {first : Except ε α} {next : α → Except ε β} {error : ε} :
    (first >>= next) = .error error ↔
      first = .error error ∨ ∃ a, first = .ok a ∧ next a = .error error := by
  cases first with
  | error cause =>
    constructor
    · exact fun h => .inl (congrArg _ (Except.error.inj h))
    · rintro (h | ⟨a, ha, -⟩)
      · exact congrArg _ (Except.error.inj h)
      · cases ha
  | ok a =>
    constructor
    · exact fun h => .inr ⟨a, rfl, h⟩
    · rintro (h | ⟨b, hb, h⟩)
      · cases h
      · rwa [Except.ok.inj hb]

theorem map_eq_error_iff {outcome : Except ε α} {f : α → β} {error : ε} :
    outcome.map f = .error error ↔ outcome = .error error := by
  cases outcome with
  | error cause =>
    exact ⟨fun h => congrArg _ (Except.error.inj h), fun h => congrArg _ (Except.error.inj h)⟩
  | ok a => exact ⟨nofun, nofun⟩

/-- What is made of all items is made of each. -/
theorem mapM_eq_ok_iff {f : α → Except ε β} {items : List α} {results : List β} :
    items.mapM f = .ok results ↔
      List.Forall₂ (fun item result => f item = .ok result) items results := by
  induction items generalizing results with
  | nil =>
    rw [List.mapM_nil, List.forall₂_nil_left_iff]
    exact ⟨fun h => (Except.ok.inj h).symm, fun h => congrArg _ h.symm⟩
  | cons item items ih =>
    rw [List.mapM_cons, List.forall₂_cons_left_iff]
    constructor
    · intro h
      obtain ⟨first, hfirst, h⟩ := bind_eq_ok h
      obtain ⟨rest, hrest, h⟩ := bind_eq_ok h
      exact ⟨first, rest, hfirst, ih.mp hrest, (Except.ok.inj h).symm⟩
    · rintro ⟨first, rest, hfirst, hrest, rfl⟩
      rw [hfirst, ih.mpr hrest]
      rfl

/-! ## The first failure -/

/-- What is done for all items, unless it fails for one: then the first failure is the answer. -/
theorem mapM_eq_findSome? {f : α → Except ε β} {fails : α → Option ε} {result : α → β}
    (h : ∀ item, f item = (fails item).elim (.ok (result item)) .error) (items : List α) :
    items.mapM f = (items.findSome? fails).elim (.ok (items.map result)) .error := by
  induction items with
  | nil => rfl
  | cons item items ih =>
    rw [List.mapM_cons, h, ih, List.findSome?_cons]
    cases fails item with
    | some error => rfl
    | none => cases items.findSome? fails <;> rfl

theorem findSome?_flatMap {γ : Type} (f : β → Option γ) (g : α → List β) (items : List α) :
    (items.flatMap g).findSome? f = items.findSome? fun item => (g item).findSome? f := by
  induction items with
  | nil => rfl
  | cons item items ih =>
    rw [List.flatMap_cons, List.findSome?_append, List.findSome?_cons, ih]
    cases (g item).findSome? f <;> rfl

/-- **A fold fails with its first failure**, if every step fails or does not whatever came
before. -/
theorem foldlM_eq_error_iff {f : β → α → Except ε β} {fails : α → Option ε} {items : List α}
    (hok : ∀ item ∈ items, fails item = none → ∀ b, ∃ next, f b item = .ok next)
    (herror : ∀ item ∈ items, ∀ error, fails item = some error → ∀ b, f b item = .error error)
    (b : β) (error : ε) : items.foldlM f b = .error error ↔ items.findSome? fails = some error := by
  induction items generalizing b with
  | nil => exact iff_of_false nofun nofun
  | cons item items ih =>
    rw [List.forall_mem_cons] at hok herror
    rw [List.foldlM_cons, List.findSome?_cons]
    cases hitem : fails item with
    | some cause =>
      rw [herror.1 cause hitem b]
      exact ⟨fun h => congrArg some (Except.error.inj h),
        fun h => congrArg Except.error (Option.some.inj h)⟩
    | none =>
      obtain ⟨next, hnext⟩ := hok.1 hitem b
      rw [hnext]
      exact ih hok.2 herror.2 next

end ScreenedQuery
