/-!
# Sorting by a comparison

Items are sorted by a comparison of any two of them. If the comparison is a total preorder of the
items, then they are put in order, and items that are equal in it stay as they were. If it is not,
then nothing is promised but that the items are still there: their order is any, or the sorting
stops in a panic.

## Main definitions

* `IsPreorderOn`: a comparison that is a total preorder of items
* `Sorting`: a way of sorting, with what is promised of it
* `Sorting.merge`: merging, which never panics
-/

namespace ScreenedQuery

/-- **A comparison that is a total preorder of items.** -/
structure IsPreorderOn {α : Type} (compare : α → α → Ordering) (items : List α) : Prop where
  swap : ∀ a ∈ items, ∀ b ∈ items, compare b a = (compare a b).swap
  trans : ∀ a ∈ items, ∀ b ∈ items, ∀ c ∈ items,
    compare a b ≠ .gt → compare b c ≠ .gt → compare a c ≠ .gt

/-- **A way of sorting**, with what is promised of it. -/
structure Sorting (α : Type) where
  /-- The items in some order, or nothing if the sorting panics. -/
  sort : (α → α → Ordering) → List α → Option (List α)
  /-- No item gets lost, and none is added. -/
  perm : ∀ {compare items sorted}, sort compare items = some sorted → sorted.Perm items
  /-- In a total preorder there is one result only that keeps equal items as they were, and it is
  found. -/
  stable : ∀ {compare items}, IsPreorderOn compare items →
    sort compare items = some (items.mergeSort fun a b => compare a b != .gt)

/-- Sorting by merging, which has a result for any comparison. -/
def Sorting.merge {α : Type} : Sorting α where
  sort compare items := some (items.mergeSort fun a b => compare a b != .gt)
  perm h := Option.some.inj h ▸ List.mergeSort_perm _ _
  stable _ := rfl

end ScreenedQuery
