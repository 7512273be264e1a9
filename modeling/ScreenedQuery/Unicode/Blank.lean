/-!
# Blank characters

The white space of the Unicode standard, and cutting it off both ends of a text.

## Main definitions

* `isBlank`: the property `White_Space`
* `trimStart`, `trimEnd`, `trim`: a text without blanks at an end

## Main results

* `isBlank_of_isWhitespace`: the white space of the core library is blank
* `trimEnd_append_of_blank`: blanks at the end do not matter to `trimEnd`
-/

namespace ScreenedQuery.Unicode

/-- The Unicode property `White_Space`. -/
def isBlank (c : Char) : Bool :=
  let n := c.toNat
  (9 ≤ n && n ≤ 13) || n == 0x20 || n == 0x85 || n == 0xA0 || n == 0x1680 ||
    (0x2000 ≤ n && n ≤ 0x200A) || n == 0x2028 || n == 0x2029 || n == 0x202F || n == 0x205F ||
    n == 0x3000

/-- The text from its first character that is not blank. -/
def trimStart (text : List Char) : List Char :=
  text.dropWhile isBlank

/-- The text up to its last character that is not blank. -/
def trimEnd (text : List Char) : List Char :=
  (text.reverse.dropWhile isBlank).reverse

/-- **A text without the blanks at its two ends.** -/
def trim (text : List Char) : List Char :=
  trimEnd (trimStart text)

theorem isBlank_of_isWhitespace {c : Char} (h : c.isWhitespace) : isBlank c := by
  simp only [Char.isWhitespace, Bool.or_eq_true, decide_eq_true_eq] at h
  rcases h with ((rfl | rfl) | rfl) | rfl <;> decide

@[simp] theorem trimStart_nil : trimStart [] = [] := rfl

@[simp] theorem trimEnd_nil : trimEnd [] = [] := rfl

theorem trimStart_cons_of_blank {c : Char} (text : List Char) (h : isBlank c) :
    trimStart (c :: text) = trimStart text := by
  simp [trimStart, h]

/-- Blanks at the end of a text do not matter to `trimEnd`. -/
theorem trimEnd_append_of_blank (text : List Char) {blanks : List Char}
    (h : ∀ c ∈ blanks, isBlank c) : trimEnd (text ++ blanks) = trimEnd text := by
  have h' : ∀ c ∈ blanks.reverse, isBlank c := fun c hc => h c (List.mem_reverse.mp hc)
  rw [trimEnd, List.reverse_append, List.dropWhile_append_of_pos h', trimEnd]

end ScreenedQuery.Unicode
