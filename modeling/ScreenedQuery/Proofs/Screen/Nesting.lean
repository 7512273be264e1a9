import Mathlib.Algebra.Group.Int.Defs
import Mathlib.Data.List.Infix
import ScreenedQuery.Proofs.Sql.Scan

/-!
# The grammar of nesting

A text nests when it is a row of plain characters, closed quoted runs and groups, a group being such
a row between parentheses; behind the row one quoted run may stay open. The rule of the screen goes
through a text once, with a quote and a depth, and accepts these texts and no others.

## Main definitions

* `Nested`: the rows of the grammar
* `OpenRun`: a quoted run that is not closed
* `outside`: the characters of a text outside of quoted runs
* `surplus`: how many parentheses a text opens there beyond those it closes

## Main results

* `nestsFrom_iff`: a text nests when no beginning of it closes too much, and the whole too little
* `nestsFrom_append`: the depth is what the surplus says
* `Nested.closed`, `unwinds_of_nestsFrom`: the rule against the grammar, in both directions
* `nests_iff_grammar`: the rule decides the grammar
-/

namespace ScreenedQuery.Screen

open Sql (Closed closed_iff nextQuote parenthesize quoteAfter)

/-! ## The grammar -/

/-- **The rows of the grammar**, from which nothing stands open. -/
inductive Nested : List Char → Prop
  | nil : Nested []
  | plain {c : Char} {text : List Char} (quote : isQuote c = false) (left : c ≠ '(')
      (right : c ≠ ')') (behind : Nested text) : Nested (c :: text)
  /-- A quoted run, in which anything may stand but its quote. -/
  | quoted {quote : Char} {run text : List Char} (isQuote : isQuote quote = true)
      (inside : quote ∉ run) (behind : Nested text) : Nested (quote :: (run ++ quote :: text))
  | group {inner text : List Char} (inside : Nested inner) (behind : Nested text) :
      Nested ('(' :: (inner ++ ')' :: text))

/-- A quoted run that is not closed. -/
def OpenRun (text : List Char) : Prop :=
  ∃ quote run, isQuote quote = true ∧ quote ∉ run ∧ text = quote :: run

theorem Nested.append {first second : List Char} (hfirst : Nested first)
    (hsecond : Nested second) : Nested (first ++ second) := by
  induction hfirst with
  | nil => exact hsecond
  | plain hquote hleft hright _ ih => exact .plain hquote hleft hright ih
  | quoted hquote hrun _ ih => simpa using Nested.quoted hquote hrun ih
  | group hinner _ _ ih => simpa using Nested.group hinner ih

/-- **The rows of the grammar are closed texts.** -/
theorem Nested.closed {text : List Char} (h : Nested text) : Closed text := by
  induction h with
  | nil => exact .nil
  | plain hquote hleft hright _ ih => exact (Closed.singleton hquote hleft hright).append ih
  | quoted hquote hrun _ ih => simpa using (Closed.quoted hquote hrun).append ih
  | group _ _ hinner hrest => simpa [parenthesize] using hinner.parenthesize.append hrest

/-- **What closes `depth` groups that stand open**: a row before each parenthesis that closes one,
and behind them a row and perhaps a quoted run that stays open. -/
inductive Unwinds : Nat → List Char → Prop
  | last {body rest : List Char} (row : Nested body) (tail : rest = [] ∨ OpenRun rest) :
      Unwinds 0 (body ++ rest)
  | close {depth : Nat} {body text : List Char} (row : Nested body) (next : Unwinds depth text) :
      Unwinds (depth + 1) (body ++ ')' :: text)

/-- A row may stand in front. -/
theorem Unwinds.behind {depth : Nat} {row text : List Char} (hrow : Nested row)
    (h : Unwinds depth text) : Unwinds depth (row ++ text) := by
  cases h with
  | last hbody hrest =>
    rw [← List.append_assoc]
    exact .last (hrow.append hbody) hrest
  | close hbody hnext =>
    rw [← List.append_assoc]
    exact .close (hrow.append hbody) hnext

/-- What closes one group more closes one that is opened in front of it. -/
theorem Unwinds.opened {depth : Nat} {text : List Char} (h : Unwinds (depth + 1) text) :
    Unwinds depth ('(' :: text) := by
  cases h with
  | close hbody hnext => simpa using hnext.behind (Nested.group hbody .nil)

/-- In an open run nothing is closed any more. -/
theorem nestsFrom_of_not_mem {quote : Char} {run : List Char} (h : quote ∉ run) (depth : Nat) :
    nestsFrom (some quote) depth run = (depth == 0) := by
  induction run with
  | nil => rfl
  | cons c run ih =>
    have hc : c ≠ quote := fun e => h (e ▸ List.mem_cons_self)
    simp [nestsFrom, hc, ih fun hmem => h (List.mem_cons_of_mem _ hmem)]

/-- **What the rule accepts is a text of the grammar**, with as many groups open as its depth
says. -/
theorem unwinds_of_nestsFrom {depth : Nat} : {text : List Char} →
    nestsFrom none depth text = true → Unwinds depth text
  | [], h => by
    obtain rfl : depth = 0 := by simpa [nestsFrom] using h
    exact .last .nil (.inl rfl)
  | c :: text, h => by
    by_cases hquote : isQuote c = true
    · by_cases hmem : c ∈ text
      · -- The run is closed by the first quote of its kind.
        obtain ⟨run, rest, rfl, hrun⟩ := List.eq_append_cons_of_mem hmem
        rw [nestsFrom_quoted hquote hrun] at h
        simpa using (unwinds_of_nestsFrom h).behind (Nested.quoted hquote hrun .nil)
      · have hdepth : nestsFrom (some c) depth text = true := by simpa [nestsFrom, hquote] using h
        rw [nestsFrom_of_not_mem hmem, beq_iff_eq] at hdepth
        subst hdepth
        exact .last .nil (.inr ⟨c, text, hquote, hmem, rfl⟩)
    · rw [Bool.not_eq_true] at hquote
      by_cases hleft : c = '('
      · subst hleft
        have hnext : nestsFrom none (depth + 1) text = true := by simpa [nestsFrom, hquote] using h
        exact (unwinds_of_nestsFrom hnext).opened
      · by_cases hright : c = ')'
        · subst hright
          cases depth with
          | zero => simp [nestsFrom, hquote] at h
          | succ depth =>
            have hnext : nestsFrom none depth text = true := by simpa [nestsFrom, hquote] using h
            exact .close .nil (unwinds_of_nestsFrom hnext)
        · have hnext : nestsFrom none depth text = true := by
            simpa [nestsFrom, hquote, hleft, hright] using h
          exact (unwinds_of_nestsFrom hnext).behind (.plain hquote hleft hright .nil)
  termination_by text => text.length

/-! ## Outside of quoted runs -/

/-- **The characters of a text outside of quoted runs**, when the run of `quote` stands open in
front of it. -/
def outside (quote : Option Char) : List Char → List Char
  | [] => []
  | c :: text =>
    (if quote = none ∧ isQuote c = false then [c] else []) ++ outside (nextQuote quote c) text

theorem outside_append (quote : Option Char) (first second : List Char) :
    outside quote (first ++ second) =
      outside quote first ++ outside (quoteAfter quote first) second := by
  induction first generalizing quote with
  | nil => rfl
  | cons c first ih => simp [outside, ih, quoteAfter]

theorem outside_of_not_mem {quote : Char} {run : List Char} (h : quote ∉ run) :
    outside (some quote) run = [] := by
  induction run with
  | nil => rfl
  | cons c run ih =>
    have hc : c ≠ quote := fun e => h (e ▸ List.mem_cons_self)
    simpa [outside, nextQuote, hc] using ih fun hmem => h (List.mem_cons_of_mem _ hmem)

/-- **The rule looks at what stands outside of quoted runs**, and at nothing else. -/
theorem nestsFrom_outside (quote : Option Char) (depth : Nat) (text : List Char) :
    nestsFrom none depth (outside quote text) = nestsFrom quote depth text := by
  induction text generalizing quote depth with
  | nil => rfl
  | cons c text ih =>
    cases quote with
    | some open_ => simp [outside, nestsFrom, nextQuote, ih]
    | none =>
      by_cases hquote : isQuote c = true
      · simp [outside, nestsFrom, nextQuote, hquote, ih]
      · cases depth <;> simp [outside, nestsFrom, nextQuote, hquote, ih]

/-- **A quoted run can be left out**, whatever stands in it, and whether it is closed or not. -/
theorem nests_quoted {before run : List Char} {quote : Char}
    (hbefore : quoteAfter none before = none) (hquote : isQuote quote = true)
    (hrun : quote ∉ run) (after : List Char) :
    nests (before ++ quote :: (run ++ quote :: after)) = nests (before ++ after) ∧
      nests (before ++ quote :: run) = nests before := by
  have hopen : nextQuote none quote = some quote := by simp [nextQuote, hquote]
  have hclose : nextQuote (some quote) quote = none := by simp [nextQuote]
  constructor
  · rw [nests, ← nestsFrom_outside, nests, ← nestsFrom_outside none 0 (before ++ after)]
    simp [outside_append, hbefore, outside, hquote, hopen, hclose, outside_of_not_mem hrun,
      Sql.quoteAfter_of_not_mem hrun]
  · rw [nests, ← nestsFrom_outside, nests, ← nestsFrom_outside none 0 before]
    simp [outside_append, hbefore, outside, hquote, hopen, outside_of_not_mem hrun]

/-! ## The depth -/

/-- **How many parentheses a text opens beyond those it closes**, outside of quoted runs. -/
def surplus (quote : Option Char) (text : List Char) : Int :=
  (outside quote text).count '(' - (outside quote text).count ')'

@[simp] theorem surplus_nil (quote : Option Char) : surplus quote [] = 0 := rfl

theorem surplus_cons (quote : Option Char) (c : Char) (text : List Char) :
    surplus quote (c :: text) = surplus quote [c] + surplus (nextQuote quote c) text := by
  simp only [surplus, outside, List.count_append, List.append_nil]
  omega

/-- **One character**: the depth changes by its surplus, and the rule stops where the depth would
be negative. -/
theorem nestsFrom_cons (quote : Option Char) (depth : Nat) (c : Char) (text : List Char) :
    nestsFrom quote depth (c :: text) =
      if 0 ≤ depth + surplus quote [c] then
        nestsFrom (nextQuote quote c) (depth + surplus quote [c]).toNat text
      else false := by
  cases quote with
  | some open_ => simp [nestsFrom, nextQuote, surplus, outside]
  | none =>
    by_cases hquote : isQuote c = true
    · simp [nestsFrom, nextQuote, surplus, outside, hquote]
    · rw [Bool.not_eq_true] at hquote
      by_cases hleft : c = '('
      · subst hleft
        have hdepth : (0 : Int) ≤ depth + 1 := by omega
        simp [nestsFrom, nextQuote, surplus, outside, hquote, hdepth]
      · by_cases hright : c = ')'
        · subst hright
          cases depth <;> simp [nestsFrom, nextQuote, surplus, outside, hquote]
        · simp [nestsFrom, nextQuote, surplus, outside, hquote, hleft, hright]

/-- **A text nests when no beginning of it closes more than is open, and the whole of it closes
all.** -/
theorem nestsFrom_iff {quote : Option Char} {depth : Nat} {text : List Char} :
    nestsFrom quote depth text = true ↔
      depth + surplus quote text = 0 ∧
        ∀ before, before <+: text → 0 ≤ depth + surplus quote before := by
  induction text generalizing quote depth with
  | nil => simp [nestsFrom]
  | cons c text ih =>
    rw [nestsFrom_cons]
    split
    · rename_i hdepth
      rw [ih, Int.toNat_of_nonneg hdepth, Int.add_assoc, ← surplus_cons]
      refine and_congr_right fun _ => ?_
      constructor <;> intro h before hbefore
      · cases before with
        | nil => simp
        | cons d before =>
          obtain ⟨rfl, hrest⟩ := List.cons_prefix_cons.mp hbefore
          rw [surplus_cons, ← Int.add_assoc]
          exact h before hrest
      · rw [Int.add_assoc, ← surplus_cons]
        exact h (c :: before) (List.cons_prefix_cons.mpr ⟨rfl, hbefore⟩)
    · rename_i hdepth
      exact iff_of_false Bool.false_ne_true fun h =>
        hdepth (h.2 [c] (List.cons_prefix_cons.mpr ⟨rfl, List.nil_prefix⟩))

/-- **The depth is what the surplus says**, behind a text that closes nowhere more than is open. -/
theorem nestsFrom_append {quote : Option Char} {depth next : Nat} {before : List Char}
    (h : ∀ first, first <+: before → 0 ≤ depth + surplus quote first)
    (hnext : depth + surplus quote before = next) (after : List Char) :
    nestsFrom quote depth (before ++ after) = nestsFrom (quoteAfter quote before) next after := by
  induction before generalizing quote depth with
  | nil =>
    rw [surplus_nil, Int.add_zero, Int.ofNat_inj] at hnext
    rw [hnext]
    rfl
  | cons c before ih =>
    have hdepth := h [c] (List.cons_prefix_cons.mpr ⟨rfl, List.nil_prefix⟩)
    rw [List.cons_append, nestsFrom_cons, if_pos hdepth]
    refine ih (fun first hfirst => ?_) ?_
    · rw [Int.toNat_of_nonneg hdepth, Int.add_assoc, ← surplus_cons]
      exact h (c :: first) (List.cons_prefix_cons.mpr ⟨rfl, hfirst⟩)
    · rw [Int.toNat_of_nonneg hdepth, Int.add_assoc, ← surplus_cons]
      exact hnext

theorem nests_iff {text : List Char} :
    nests text = true ↔
      surplus none text = 0 ∧ ∀ before, before <+: text → 0 ≤ surplus none before := by
  simpa [nests] using @nestsFrom_iff none 0 text

/-- A closed text makes no difference in front of another. -/
theorem nests_append {first : List Char} (h : Closed first) (second : List Char) :
    nests (first ++ second) = nests second := by
  obtain ⟨hnests, hquote⟩ := closed_iff.mp h
  obtain ⟨hzero, hbefore⟩ := nests_iff.mp hnests
  have happend := @nestsFrom_append none 0 0 first (by simpa using hbefore) (by simpa using hzero)
    second
  rwa [hquote] at happend

/-- An open run is accepted. -/
theorem OpenRun.nests {run : List Char} (h : OpenRun run) : nests run = true := by
  obtain ⟨quote, run, hquote, hrun, rfl⟩ := h
  exact (@nests_quoted [] run quote rfl hquote hrun []).2

/-! ## The rule and the grammar -/

/-- **The rule decides the grammar.** It accepts a text exactly if this is a row of the grammar,
perhaps with a quoted run behind it that stays open.

* A quoted run in a text, closed or not, makes no difference, whatever stands in it.
* The parentheses outside of quoted runs are closed in all, and no beginning of the text closes more
  of them than it opens.
* Behind a beginning, no beginning of which closes more than it opens, the depth is the number of
  parentheses that it opens beyond those it closes. So it is never taken below zero.
* A text that is accepted and has no open run may stand in front of any text without changing the
  answer, and it is accepted between parentheses. -/
theorem nests_iff_grammar (text : List Char) :
    (nests text = true ↔
      ∃ body rest, text = body ++ rest ∧ Nested body ∧ (rest = [] ∨ OpenRun rest)) ∧
    (∀ before quote run after, quoteAfter none before = none → isQuote quote = true →
      quote ∉ run →
      nests (before ++ quote :: (run ++ quote :: after)) = nests (before ++ after) ∧
        nests (before ++ quote :: run) = nests before) ∧
    (nests text = true ↔
      surplus none text = 0 ∧ ∀ before, before <+: text → 0 ≤ surplus none before) ∧
    (∀ (before after : List Char) (depth : Nat), text = before ++ after →
      (∀ first, first <+: before → 0 ≤ surplus none first) → surplus none before = depth →
      nests text = nestsFrom (quoteAfter none before) depth after) ∧
    (nests text = true → quoteAfter none text = none →
      (∀ other, nests (text ++ other) = nests other) ∧ nests (parenthesize text) = true) := by
  refine ⟨⟨fun h => ?_, ?_⟩, fun before quote run after hbefore hquote hrun =>
    nests_quoted hbefore hquote hrun after, nests_iff, ?_, fun h hquote => ⟨fun other => ?_, ?_⟩⟩
  · cases unwinds_of_nestsFrom h with
    | last hrow htail => exact ⟨_, _, rfl, hrow, htail⟩
  · rintro ⟨body, rest, rfl, hbody, htail⟩
    rw [nests_append hbody.closed]
    rcases htail with rfl | hrun
    · rfl
    · exact hrun.nests
  · rintro before after depth rfl hbefore hdepth
    exact @nestsFrom_append none 0 depth before (by simpa using hbefore) (by simpa using hdepth)
      after
  · exact nests_append (closed_iff.mpr ⟨h, hquote⟩) other
  · exact (closed_iff.mp (closed_iff.mpr ⟨h, hquote⟩).parenthesize).1

/-- A group in a group, and a run of each kind, in which parentheses and the other quote stand. -/
theorem nests_iff_grammar_groups :
    let before := "((a = ".toList
    let after := ") and b = \"(it's\")".toList
    let text := before ++ '\'' :: ([')'] ++ '\'' :: after)
    nests text = true ∧
      (∃ body rest, text = body ++ rest ∧ Nested body ∧ (rest = [] ∨ OpenRun rest)) ∧
      nests (before ++ after) = nests text ∧
      nestsFrom none 2 ('\'' :: ([')'] ++ '\'' :: after)) = nests text ∧
      nests (text ++ " or c = 'd)".toList) = true ∧ nests (parenthesize text) = true := by
  intro before after text
  have hnests : nests text = true := by decide
  obtain ⟨hgrammar, hruns, -, hdepth, hclosed⟩ := nests_iff_grammar text
  obtain ⟨happend, hparenthesize⟩ := hclosed hnests (by decide)
  -- Two groups stand open in front of the first run, and no beginning closes one.
  have hopen : ∀ first, first <+: before → 0 ≤ surplus none first := by
    simp only [← List.mem_inits]
    decide
  refine ⟨hnests, hgrammar.mp hnests, ?_, ?_, ?_, hparenthesize⟩
  · exact (hruns before '\'' [')'] after (by decide) rfl (by decide)).1.symm
  · exact (hdepth before _ 2 rfl hopen (by decide)).symm
  · rw [happend]
    decide

end ScreenedQuery.Screen
