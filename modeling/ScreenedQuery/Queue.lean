import ScreenedQuery.QueryError

/-!
# Queues

Fragments wait in a queue, first in, first out.

## Main definitions

* `Queue`: the items that wait, the next one first
* `Queue.push`, `Queue.get`, `Queue.peek?`, `Queue.clear`: putting in, taking out, looking

## Main results

* `Queue.get_push`: an item put into a queue does not get in front of another
-/

namespace ScreenedQuery

/-- **A queue.** -/
structure Queue (α : Type) where
  /-- The items, the next one first. -/
  items : List α := []

namespace Queue

variable {α : Type}

def empty : Queue α := {}

instance : Inhabited (Queue α) := ⟨empty⟩

/-- Puts an item behind the others. -/
def push (queue : Queue α) (item : α) : Queue α := ⟨queue.items ++ [item]⟩

def get (queue : Queue α) : Except QueryError (α × Queue α) :=
  match queue.items with
  | [] => .error .emptyQueue
  | item :: items => .ok (item, ⟨items⟩)

/-- The next item, which stays. -/
def peek? (queue : Queue α) : Option α := queue.items.head?

def size (queue : Queue α) : Nat := queue.items.length

def isEmpty (queue : Queue α) : Bool := queue.items.isEmpty

def clear (_ : Queue α) : Queue α := empty

@[simp] theorem items_push (queue : Queue α) (item : α) :
    (queue.push item).items = queue.items ++ [item] := rfl

/-- An item put into a queue does not get in front of another. -/
theorem get_push {queue rest : Queue α} {first : α} (h : queue.get = .ok (first, rest))
    (item : α) : (queue.push item).get = .ok (first, rest.push item) := by
  rcases queue with ⟨_ | ⟨head, items⟩⟩
  · simp [get] at h
  · simp only [get, Except.ok.injEq, Prod.mk.injEq] at h
    obtain ⟨rfl, rfl⟩ := h
    rfl

end Queue

end ScreenedQuery
