import Mathlib.Algebra.Group.Nat.Defs
import Mathlib.Data.List.Induction
import Mathlib.Data.List.TakeWhile
import ScreenedQuery.Number.Literal

/-!
# Digits of whole numbers

The decimal digits of a whole number are read back as the number, and no zero stands in front of
others.

## Main results

* `Number.digitsValue_toDigits`: digits are read back
* `Number.splitDigits_append`: digits end where no digit follows
* `Number.head_toDigits_ne_zero`: there is no leading zero
-/

namespace ScreenedQuery

/-- What meets a condition in front of what does not. -/
theorem span_append {α : Type} {p : α → Bool} {first rest : List α} (hfirst : ∀ x ∈ first, p x)
    (hrest : ∀ x ∈ rest.head?, p x = false) :
    (first ++ rest).takeWhile p = first ∧ (first ++ rest).dropWhile p = rest := by
  rw [List.takeWhile_append_of_pos hfirst, List.dropWhile_append_of_pos hfirst]
  cases rest with
  | nil => simp
  | cons x rest => simp [hrest x rfl]

/-- What does not meet a condition at its start adds nothing to what does. -/
theorem takeWhile_append_of_eq_nil {α : Type} {p : α → Bool} {second : List α}
    (h : second.takeWhile p = []) (first : List α) :
    (first ++ second).takeWhile p = first.takeWhile p := by
  rw [List.takeWhile_append, h, List.append_nil]
  split
  · rename_i hall
    exact ((List.takeWhile_prefix p).eq_of_length hall).symm
  · rfl

namespace Number

/-- The digits of a number are read back. -/
@[simp] theorem digitsValue_toDigits (n : Nat) : digitsValue (Nat.toDigits 10 n) = n :=
  Nat.ofDigitChars_ten_toDigits

/-- A zero at the end of a number is a factor ten. -/
theorem digitsValue_append_zeros (digits : List Char) (n : Nat) :
    digitsValue (digits ++ List.replicate n '0') = digitsValue digits * 10 ^ n := by
  induction n with
  | zero => simp
  | succ n ih =>
    rw [List.replicate_succ', ← List.append_assoc, digitsValue_append_digit, ih,
      show digitValue '0' = 0 from rfl, Nat.add_zero, Nat.pow_succ, Nat.mul_comm 10, Nat.mul_assoc]

/-- More digits denote no smaller number. -/
theorem digitsValue_le_append (digits more : List Char) :
    digitsValue digits ≤ digitsValue (digits ++ more) := by
  induction more generalizing digits with
  | nil => simp
  | cons c more ih =>
    rw [List.append_cons]
    refine le_trans ?_ (ih (digits ++ [c]))
    rw [digitsValue_append_digit]
    omega

/-- Zeros in front of digits do not count. -/
theorem digitsValue_zeros_append (n : Nat) (digits : List Char) :
    digitsValue (List.replicate n '0' ++ digits) = digitsValue digits := by
  induction n with
  | zero => rfl
  | succ n ih => exact ih

/-- A number with so many digits is below the power of ten. -/
theorem digitsValue_lt {digits : List Char} (h : ∀ c ∈ digits, c.isDigit = true) :
    digitsValue digits < 10 ^ digits.length := by
  induction digits using List.reverseRecOn with
  | nil => decide
  | append_singleton digits c ih =>
    rw [List.forall_mem_append, List.forall_mem_singleton] at h
    have hlt := ih h.1
    have hc : digitValue c < 10 := by
      have hdigit := h.2
      rw [Char.isDigit, Bool.and_eq_true, decide_eq_true_eq, decide_eq_true_eq] at hdigit
      have hle : c.toNat ≤ 57 := UInt32.le_iff_toNat_le.mp hdigit.2
      rw [digitValue]
      omega
    rw [digitsValue_append_digit, List.length_append, List.length_singleton, Nat.pow_succ]
    omega

theorem isDigit_of_mem_toDigits {n : Nat} {c : Char} (h : c ∈ Nat.toDigits 10 n) :
    c.isDigit = true :=
  Nat.isDigit_of_mem_toDigits (by decide) (by decide) h

/-- Digits end where no digit follows. -/
theorem splitDigits_append {digits rest : List Char} (hdigits : ∀ c ∈ digits, c.isDigit)
    (hrest : ∀ c ∈ rest.head?, c.isDigit = false) :
    splitDigits (digits ++ rest) = (digits, rest) := by
  obtain ⟨htake, hdrop⟩ := span_append hdigits hrest
  rw [splitDigits, htake, hdrop]

/-- No zero stands in front of other digits. -/
theorem head_toDigits_ne_zero {n : Nat} (h : 0 < n) : (Nat.toDigits 10 n).head? ≠ some '0' := by
  induction n using Nat.strongRecOn with
  | ind n ih =>
    by_cases hn : n < 10
    · have hdigit : ∀ n < 10, 0 < n → [n.digitChar].head? ≠ some '0' := by decide
      rw [Nat.toDigits_of_lt_base hn]
      exact hdigit n hn h
    · -- The first digit is that of the tenth part.
      have htenth := ih (n / 10) (by omega) (by omega)
      rw [Nat.toDigits_of_base_le (by decide) (by omega)]
      cases hdigits : Nat.toDigits 10 (n / 10) with
      | nil => exact absurd hdigits Nat.toDigits_ne_nil
      | cons c digits => simpa [hdigits] using htenth

end Number

end ScreenedQuery
