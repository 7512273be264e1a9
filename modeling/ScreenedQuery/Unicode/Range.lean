/-!
# Ranges of code points

Tables of the Unicode standard are lists of ranges. The lists of this library are in increasing
order and leave ASCII out: properties of ASCII characters are stated directly.

## Main definitions

* `Ranges`: a list of first and last code points
* `Ranges.has`: whether a code point lies in one of the ranges
-/

namespace ScreenedQuery.Unicode

/-- Ranges of code points, each given by its first and its last member. -/
abbrev Ranges := List (Nat × Nat)

/-- Whether the code point `n` lies in one of the ranges. -/
def Ranges.has (ranges : Ranges) (n : Nat) : Bool :=
  ranges.any fun range => range.1 ≤ n && n ≤ range.2

/-- Membership is membership in one of the ranges. -/
theorem Ranges.has_iff {ranges : Ranges} {n : Nat} :
    ranges.has n ↔ ∃ range ∈ ranges, range.1 ≤ n ∧ n ≤ range.2 := by
  simp [Ranges.has]

end ScreenedQuery.Unicode
