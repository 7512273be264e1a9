import ScreenedQuery.Screen.Nesting
import ScreenedQuery.Sql.Draft

/-!
# Scanning quotes and parentheses

A statement is scanned from its start. A quote outside quoted text opens a run, the next quote of
the same kind closes it, and parentheses count only outside of runs. The scan keeps where the
parentheses that stand open are, so that it tells which of them a closing one belongs to.

## Main definitions

* `Sql.Scan`, `Sql.Scan.run`: what a scan knows, and a text scanned
* `Sql.Pairs`: two places of a text hold parentheses that belong together
* `Sql.Closed`: a text closes all that it opens, and nothing else
* `Sql.quoteAfter`: the run that stands open behind a text
* `Sql.Advances`: what one character does to a scan and to the rule on nesting

## Main results

* `Sql.run_of_nestsFrom`: what the screen's rule on nesting says about a scan
* `Sql.closed_iff`: a text is closed when it nests and its last run is closed
* `Sql.Closed.run`: a closed text changes no scan
-/

namespace ScreenedQuery.Sql

open Screen (nests nestsFrom)

/-! ## Scans -/

/-- **What a scan knows.** -/
structure Scan where
  /-- The quote of the run that stands open. -/
  quote : Option Char := none
  /-- The places of the parentheses that stand open, the innermost first. -/
  opened : List Nat := []
  deriving DecidableEq

/-- The run that stands open behind a character. -/
def nextQuote (quote : Option Char) (c : Char) : Option Char :=
  match quote with
  | some open_ => if c = open_ then none else some open_
  | none => if isQuote c then some c else none

/-- The scan behind a character at a place, unless it is a parenthesis that closes nothing. -/
def Scan.step (scan : Scan) (place : Nat) (c : Char) : Option Scan :=
  match scan.quote with
  | some _ => some { scan with quote := nextQuote scan.quote c }
  | none =>
    if c = '(' then some { scan with opened := place :: scan.opened }
    else if c = ')' then
      match scan.opened with
      | [] => none
      | _ :: opened => some { scan with opened }
    else some { scan with quote := nextQuote none c }

/-- **The scan behind a text** that starts at a place. -/
def Scan.run (scan : Scan) (place : Nat) : List Char → Option Scan
  | [] => some scan
  | c :: text => (scan.step place c).bind fun scan => scan.run (place + 1) text

/-- The scan of a text from its start. -/
def scanText (text : List Char) : Option Scan := Scan.run {} 0 text

/-- **Two places of a text hold parentheses that belong together**, both outside of quoted runs. -/
def Pairs (text : List Char) (left right : Nat) : Prop :=
  text[left]? = some '(' ∧ text[right]? = some ')' ∧
    ∃ opened, scanText (text.take left) = some ⟨none, opened⟩ ∧
      scanText (text.take right) = some ⟨none, left :: opened⟩

/-- **A text closes what it opens**: its scan ends outside of quoted runs with no parenthesis
open. -/
def Closed (text : List Char) : Prop := scanText text = some {}

instance (text : List Char) : Decidable (Closed text) :=
  inferInstanceAs (Decidable (scanText text = some {}))

@[simp] theorem run_nil (scan : Scan) (place : Nat) : scan.run place [] = some scan := rfl

theorem run_append (scan : Scan) (place : Nat) (first second : List Char) :
    scan.run place (first ++ second) =
      (scan.run place first).bind fun scan => scan.run (place + first.length) second := by
  induction first generalizing scan place with
  | nil => simp
  | cons c first ih =>
    simp only [List.cons_append, Scan.run, Option.bind_assoc, List.length_cons]
    congr 1
    funext next
    rw [ih, Nat.add_assoc, Nat.add_comm 1]

/-! ## Scans and the screen -/

/-- The run that stands open behind a text. -/
def quoteAfter (quote : Option Char) (text : List Char) : Option Char :=
  text.foldl nextQuote quote

/-- The number of parentheses that stand open behind a character. -/
def nextDepth (quote : Option Char) (depth : Nat) (c : Char) : Nat :=
  match quote with
  | some _ => depth
  | none => if c = '(' then depth + 1 else if c = ')' then depth - 1 else depth

/-- **One character**, for a scan and for the screen's rule on nesting. Both go on with the same
parentheses open, whatever stands open around the text. -/
structure Advances (quote : Option Char) (opened next : List Nat) (place : Nat) (c : Char) :
    Prop where
  nests : ∀ text, nestsFrom quote opened.length (c :: text) =
    nestsFrom (nextQuote quote c) next.length text
  step : ∀ base, Scan.step ⟨quote, opened ++ base⟩ place c =
    some ⟨nextQuote quote c, next ++ base⟩
  depth : ∀ base : List Nat, nextDepth quote (opened ++ base).length c = (next ++ base).length

/-- A character closes a parenthesis that the text has not opened, and then the text does not nest,
or scan and rule go on. -/
theorem step_cases (quote : Option Char) (opened : List Nat) (place : Nat) (c : Char) :
    (Scan.step ⟨quote, opened⟩ place c = none ∧
        ∀ text, nestsFrom quote opened.length (c :: text) = false) ∨
      ∃ next, Advances quote opened next place c := by
  cases quote with
  | some open_ =>
    -- In a quoted run parentheses are not looked at.
    refine .inr ⟨opened, fun text => ?_, fun base => rfl, fun base => rfl⟩
    simp [nestsFrom, nextQuote]
  | none =>
    by_cases hleft : c = '('
    · subst hleft
      refine .inr ⟨place :: opened, fun text => ?_, fun base => ?_, fun base => ?_⟩
      · simp [nestsFrom, nextQuote, isQuote]
      · simp [Scan.step, nextQuote, isQuote]
      · simp [nextDepth]
    · by_cases hright : c = ')'
      · subst hright
        -- A closing parenthesis takes away the innermost open one, if there is one.
        cases opened with
        | nil => exact .inl ⟨rfl, fun text => by simp [nestsFrom, isQuote]⟩
        | cons last opened =>
          refine .inr ⟨opened, fun text => ?_, fun base => ?_, fun base => ?_⟩
          · simp [nestsFrom, nextQuote, isQuote]
          · simp [Scan.step, nextQuote, isQuote]
          · simp [nextDepth]
      · refine .inr ⟨opened, fun text => ?_, fun base => ?_, fun base => ?_⟩
        · by_cases hquote : isQuote c = true <;>
            simp [nestsFrom, nextQuote, hquote, hleft, hright]
        · simp [Scan.step, hleft, hright]
        · simp [nextDepth, hleft, hright]

/-- **A text that nests closes what stands open for it and nothing else**, whatever stands around
it; only a quoted run may stay open. -/
theorem run_of_nestsFrom {quote : Option Char} {opened : List Nat} {text : List Char}
    (h : nestsFrom quote opened.length text) (base : List Nat) (place : Nat) :
    Scan.run ⟨quote, opened ++ base⟩ place text = some ⟨quoteAfter quote text, base⟩ := by
  -- Only what the text itself has opened changes; `base` stays below it.
  induction text generalizing quote opened place with
  | nil =>
    have hopened : opened = [] := by simpa [nestsFrom] using h
    simp [hopened, quoteAfter]
  | cons c text ih =>
    rcases step_cases quote opened place c with ⟨-, hfalse⟩ | ⟨next, hnext⟩
    · simp [hfalse] at h
    · rw [hnext.nests] at h
      rw [Scan.run, hnext.step base, Option.bind_some, ih h]
      rfl

/-- The first character of a text whose scan does not fail. -/
theorem advances_of_run {quote : Option Char} {opened : List Nat} {place : Nat} {c : Char}
    {text : List Char} {last : Scan}
    (h : Scan.run ⟨quote, opened⟩ place (c :: text) = some last) :
    ∃ next, Advances quote opened next place c ∧
      Scan.run ⟨nextQuote quote c, next⟩ (place + 1) text = some last := by
  rw [Scan.run] at h
  rcases step_cases quote opened place c with ⟨hnone, -⟩ | ⟨next, hnext⟩
  · simp [hnone] at h
  · have hstep := hnext.step []
    rw [List.append_nil, List.append_nil] at hstep
    rw [hstep, Option.bind_some] at h
    exact ⟨next, hnext, h⟩

/-- A text that closes what stands open for it nests. -/
theorem nestsFrom_of_run {quote after : Option Char} {opened : List Nat} {place : Nat}
    {text : List Char} (h : Scan.run ⟨quote, opened⟩ place text = some ⟨after, []⟩) :
    nestsFrom quote opened.length text := by
  induction text generalizing quote opened place with
  | nil =>
    obtain ⟨-, rfl⟩ : quote = after ∧ opened = [] := by simpa using h
    rfl
  | cons c text ih =>
    obtain ⟨next, hnext, hrun⟩ := advances_of_run h
    rw [hnext.nests]
    exact ih hrun

theorem run_of_nests {text : List Char} (h : nests text) (opened : List Nat) (place : Nat) :
    Scan.run ⟨none, opened⟩ place text = some ⟨quoteAfter none text, opened⟩ := by
  have hnil : nestsFrom none ([] : List Nat).length text := h
  exact run_of_nestsFrom hnil opened place

theorem quoteAfter_of_not_mem {quote : Char} {run : List Char} (h : quote ∉ run) :
    quoteAfter (some quote) run = some quote := by
  induction run with
  | nil => rfl
  | cons c run ih =>
    have hc : c ≠ quote := fun e => h (e ▸ List.mem_cons_self)
    simpa [quoteAfter, nextQuote, hc] using ih fun hmem => h (List.mem_cons_of_mem _ hmem)

/-! ## Closed texts -/

/-- The characters that mean nothing to a scan, and are not blank. -/
def isPlain (c : Char) : Bool := c != ' ' && !isQuote c && c != '(' && c != ')'

theorem isPlain_iff {c : Char} :
    isPlain c = true ↔ c ≠ ' ' ∧ isQuote c = false ∧ c ≠ '(' ∧ c ≠ ')' := by
  simp [isPlain, and_assoc]

/-- A class without the characters that are not plain has plain characters only. -/
theorem isPlain_of_class {p : Char → Bool}
    (hclass : [' ', '\'', '"', '(', ')'].all (fun other => !p other) = true) {c : Char}
    (h : p c = true) : isPlain c = true := by
  have hne : ∀ other ∈ [' ', '\'', '"', '(', ')'], c ≠ other := by
    rintro other hother rfl
    have hfalse := List.all_eq_true.mp hclass c hother
    rw [h] at hfalse
    cases hfalse
  simp only [List.forall_mem_cons] at hne
  obtain ⟨hblank, hsingle, hdouble, hleft, hright, -⟩ := hne
  exact isPlain_iff.mpr ⟨hblank, by simp [isQuote, hsingle, hdouble], hleft, hright⟩

/-- **A text is closed when it nests and its last quoted run is closed.** -/
theorem closed_iff {text : List Char} :
    Closed text ↔ nests text = true ∧ quoteAfter none text = none := by
  constructor
  · intro h
    have hnests : nests text = true := nestsFrom_of_run h
    rw [Closed, scanText, run_of_nests hnests] at h
    exact ⟨hnests, by simpa using h⟩
  · rintro ⟨hnests, hquote⟩
    rw [Closed, scanText, run_of_nests hnests, hquote]

namespace Closed

/-- **A closed text changes no scan.** -/
theorem run {text : List Char} (h : Closed text) (opened : List Nat) (place : Nat) :
    Scan.run ⟨none, opened⟩ place text = some ⟨none, opened⟩ := by
  obtain ⟨hnests, hquote⟩ := closed_iff.mp h
  rw [run_of_nests hnests, hquote]

theorem nil : Closed [] := rfl

theorem append {first second : List Char} (hfirst : Closed first) (hsecond : Closed second) :
    Closed (first ++ second) := by
  rw [Closed, scanText, run_append, hfirst.run, Option.bind_some, hsecond.run]

/-- A closed text is closed between parentheses. -/
theorem parenthesize {text : List Char} (h : Closed text) : Closed (parenthesize text) := by
  have hleft : Scan.run {} 0 ['('] = some ⟨none, [0]⟩ := rfl
  rw [Closed, scanText, Sql.parenthesize, ← List.singleton_append, run_append, hleft,
    Option.bind_some, run_append, h.run]
  rfl

/-- A character that is neither a quote nor a parenthesis is closed. -/
theorem singleton {c : Char} (hquote : isQuote c = false) (hleft : c ≠ '(') (hright : c ≠ ')') :
    Closed [c] := by
  simp [Closed, scanText, Scan.run, Scan.step, nextQuote, *]

/-- A text of plain characters is closed. -/
theorem of_plain {text : List Char} (h : text.all isPlain) : Closed text := by
  induction text with
  | nil => exact nil
  | cons c text ih =>
    rw [List.all_cons, Bool.and_eq_true_iff] at h
    obtain ⟨-, hquote, hleft, hright⟩ := isPlain_iff.mp h.1
    exact (singleton hquote hleft hright).append (ih h.2)

/-- A quoted run that the quote behind it closes is closed. -/
theorem quoted {quote : Char} {run : List Char} (hquote : isQuote quote = true)
    (h : quote ∉ run) : Closed (quote :: (run ++ [quote])) := by
  refine closed_iff.mpr ⟨Screen.nestsFrom_quoted hquote h 0 [], ?_⟩
  -- The run stands open up to the last quote.
  have hrun := quoteAfter_of_not_mem h
  rw [quoteAfter] at hrun
  simp [quoteAfter, nextQuote, hquote, hrun]

end Closed

/-! ## Pairs of parentheses -/

/-- What stands before a text leaves no quoted run open, and what it opens before the first
parenthesis behind it is closed behind a closed text. -/
theorem pairs_parenthesize {before text : List Char} {opened : List Nat}
    (hbefore : scanText before = some ⟨none, opened⟩) (h : Closed text) (after : List Char) :
    Pairs (before ++ parenthesize text ++ after) before.length
      (before.length + text.length + 1) := by
  have hwhole : before ++ parenthesize text ++ after =
      (before ++ '(' :: text) ++ ')' :: after := by simp [parenthesize]
  have hlength : before.length + text.length + 1 = (before ++ '(' :: text).length := by
    simp; omega
  refine ⟨by simp [parenthesize], by simp [hwhole, hlength], opened, by simpa, ?_⟩
  -- Up to the closing parenthesis: what stands before, the opening one, and the closed text.
  rw [hwhole, hlength, List.take_left, scanText, run_append]
  rw [scanText] at hbefore
  rw [hbefore, Option.bind_some, Scan.run, Scan.step]
  simpa using h.run _ _

/-- A text that nests between parentheses that belong together is closed. -/
theorem closed_of_pairs {before text after : List Char} (hnests : nests text)
    (h : Pairs (before ++ parenthesize text ++ after) before.length
      (before.length + text.length + 1)) : Closed text := by
  have hwhole : before ++ parenthesize text ++ after =
      (before ++ '(' :: text) ++ ')' :: after := by simp [parenthesize]
  have hlength : before.length + text.length + 1 = (before ++ '(' :: text).length := by
    simp; omega
  obtain ⟨-, -, opened, hbefore, hinner⟩ := h
  rw [List.append_assoc, List.take_left] at hbefore
  rw [hwhole, hlength, List.take_left, scanText, run_append] at hinner
  rw [scanText] at hbefore
  rw [hbefore, Option.bind_some, Scan.run, Scan.step] at hinner
  -- A text that nests changes nothing but the quoted run, and this is closed behind it.
  have hquote : quoteAfter none text = none := by
    simpa [run_of_nests hnests] using hinner
  exact closed_iff.mpr ⟨hnests, hquote⟩

end ScreenedQuery.Sql
