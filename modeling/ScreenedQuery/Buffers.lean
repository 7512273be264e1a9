import ScreenedQuery.Fragment

/-!
# Row buffers

The rows of a query end up in the buffer of its target. All copies of a target share one buffer.

## Main definitions

* `Buffers`: the rows in every buffer
* `Buffers.deliver`, `Buffers.take`: adding rows to a buffer and taking them out
* `Target.sharesBuffer`: whether two targets share their buffer

## Main results

* `Buffers.rows_deliver_self`, `Buffers.rows_deliver_ne`: rows reach one buffer only
-/

namespace ScreenedQuery

/-- Whether two targets share their buffer. -/
def Target.sharesBuffer (a b : Target) : Bool := a.buffer == b.buffer

/-- **The rows in every buffer.** -/
structure Buffers where
  rows : Nat → List Record

namespace Buffers

def empty : Buffers := ⟨fun _ => []⟩

instance : Inhabited Buffers := ⟨empty⟩

/-- Replaces the rows of one buffer. -/
def replace (buffers : Buffers) (buffer : Nat) (rows : List Record) : Buffers :=
  ⟨fun number => if number = buffer then rows else buffers.rows number⟩

def deliver (buffers : Buffers) (buffer : Nat) (rows : List Record) : Buffers :=
  buffers.replace buffer (buffers.rows buffer ++ rows)

/-- Takes all rows out of a buffer. -/
def take (buffers : Buffers) (buffer : Nat) : List Record × Buffers :=
  (buffers.rows buffer, buffers.replace buffer [])

/-- Delivered rows stand behind those that were there. -/
@[simp] theorem rows_deliver_self (buffers : Buffers) (buffer : Nat) (rows : List Record) :
    (buffers.deliver buffer rows).rows buffer = buffers.rows buffer ++ rows := by
  simp [deliver, replace]

/-- Rows that are delivered to one buffer do not touch another. -/
theorem rows_deliver_ne (buffers : Buffers) {buffer other : Nat} (rows : List Record)
    (h : other ≠ buffer) : (buffers.deliver buffer rows).rows other = buffers.rows other := by
  simp [deliver, replace, h]

end Buffers

end ScreenedQuery
