/-!
# Tallies

What engines have done so far, in numbers.

## Main definitions

* `Tally`: how often each thing was done

## Implementation notes

The counts are whole numbers. A counter of 64 bits shows what is left of them modulo `2 ^ 64`, and so
the count itself as long as there have been fewer events than that.
-/

namespace ScreenedQuery

/-- **What engines have done**, in numbers. -/
structure Tally where
  /-- Syncs that were begun. -/
  sync : Nat := 0
  /-- Drafts given to a backend to compile. -/
  compile : Nat := 0
  /-- Queries given to a backend to execute. -/
  execute : Nat := 0
  /-- Fragments that a draft accepted. -/
  accepted : Nat := 0
  /-- Fragments that a draft refused. -/
  rejected : Nat := 0
  deriving DecidableEq, Inhabited

end ScreenedQuery
