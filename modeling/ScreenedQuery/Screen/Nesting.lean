import ScreenedQuery.Text

/-!
# Nesting of parentheses

A text can be put between parentheses without changing what the parentheses around it mean when
its own parentheses nest. Quoted runs are skipped: a quote opens a run, and the next quote of the
same kind closes it.

## Main definitions

* `nestsFrom`: whether the rest of a text closes what stands open
* `nests`: whether the parentheses of a text nest

## Main results

* `nestsFrom_quoted`: a closed run of quoted text is skipped
-/

namespace ScreenedQuery.Screen

/-- Whether the rest of a text closes `depth` parentheses and those it opens itself, in this
order, when the quoted run of `quote` stands open. A run that is not closed is allowed. -/
def nestsFrom (quote : Option Char) (depth : Nat) : List Char → Bool
  | [] => depth == 0
  | c :: text =>
    match quote with
    -- In a quoted run nothing counts but the quote that closes it.
    | some open_ => nestsFrom (if c = open_ then none else quote) depth text
    | none =>
      if isQuote c then nestsFrom (some c) depth text
      else if c = '(' then nestsFrom none (depth + 1) text
      else if c = ')' then
        match depth with
        | 0 => false
        | depth + 1 => nestsFrom none depth text
      else nestsFrom none depth text

/-- **Whether the parentheses of a text nest.** -/
def nests (text : List Char) : Bool := nestsFrom none 0 text

/-- The characters of an open quoted run are skipped up to the quote that closes it. -/
theorem nestsFrom_run {quote : Char} {run : List Char} (h : quote ∉ run) (depth : Nat)
    (text : List Char) :
    nestsFrom (some quote) depth (run ++ quote :: text) = nestsFrom none depth text := by
  induction run with
  | nil => simp [nestsFrom]
  | cons c run ih =>
    have hc : c ≠ quote := fun e => h (e ▸ List.mem_cons_self)
    simp [nestsFrom, hc, ih fun hmem => h (List.mem_cons_of_mem _ hmem)]

/-- A closed run of quoted text is skipped. -/
theorem nestsFrom_quoted {quote : Char} (hquote : isQuote quote) {run : List Char}
    (h : quote ∉ run) (depth : Nat) (text : List Char) :
    nestsFrom none depth (quote :: (run ++ quote :: text)) = nestsFrom none depth text := by
  simp [nestsFrom, hquote, nestsFrom_run h]

end ScreenedQuery.Screen
