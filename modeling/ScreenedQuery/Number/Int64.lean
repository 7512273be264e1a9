/-!
# Integers of 64 bits

Whole numbers fit 64 bits, or they do not.

## Main definitions

* `Number.int64?`: the integer of 64 bits with a value

## Main results

* `Number.int64?_toInt`: every integer of 64 bits is found from its value
* `Number.toInt_of_int64?`: the integer that is found has the value
-/

namespace ScreenedQuery.Number

/-- **The integer of 64 bits with a value**, if there is one. -/
def int64? (n : Int) : Option Int64 :=
  if Int64.minValue.toInt ≤ n ∧ n ≤ Int64.maxValue.toInt then some (Int64.ofInt n) else none

/-- Every integer of 64 bits is found from its value. -/
@[simp] theorem int64?_toInt (n : Int64) : int64? n.toInt = some n := by
  have h : Int64.minValue.toInt ≤ n.toInt ∧ n.toInt ≤ Int64.maxValue.toInt :=
    ⟨Int64.minValue_le_toInt n, Int64.toInt_le n⟩
  rw [int64?, if_pos h, Int64.ofInt_toInt]

/-- The integer that is found has the value. -/
theorem toInt_of_int64? {n : Int} {m : Int64} (h : int64? n = some m) : m.toInt = n := by
  unfold int64? at h
  split at h
  · rename_i hn
    have hmax : Int64.maxValue.toInt = 9223372036854775807 := by decide
    rw [← Option.some.inj h, Int64.toInt_ofInt_of_le hn.1 (by omega)]
  · simp at h

end ScreenedQuery.Number
