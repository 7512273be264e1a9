import Mathlib.Data.List.Forall2
import ScreenedQuery.Proofs.Screen.Keywords

/-!
# Patterns

What the screen looks for can be written down as patterns. A pattern matches stretches of a text
by what they hold and by the two characters next to them. All keywords of a screen together are one
pattern: an alternation of words, with word boundaries around it.

## Main definitions

* `Screen.Pattern`: the patterns
* `Screen.Pattern.Matches`, `Screen.Pattern.Occurs`: the stretches that a pattern matches, and the
  texts that hold one
* `Screen.Pattern.wholeWord`: one of several words, between word boundaries

## Main results

* `Screen.Pattern.occurs_wholeWord_iff`: an alternation occurs where one of its words does
* `Screen.hasKeyword_iff_occurs`: the search for keywords is the search for one pattern
-/

namespace ScreenedQuery.Screen

open Unicode (fold isBoundary sameFold)

/-- **The patterns of stretches of a text.** -/
inductive Pattern
  /-- The empty stretch. -/
  | empty
  /-- The empty stretch, at a word boundary. -/
  | boundary
  /-- One character of a class. -/
  | one (admits : Char → Bool)
  /-- Any number of characters of a class. -/
  | many (admits : Char → Bool)
  | seq (first second : Pattern)
  | alt (first second : Pattern)

namespace Pattern

/-- **The stretches that a pattern matches**, between the characters before and after them. -/
def Matches : Pattern → Option Char → List Char → Option Char → Prop
  | empty, _, stretch, _ => stretch = []
  | boundary, before, stretch, after => stretch = [] ∧ isBoundary before after = true
  | one admits, _, stretch, _ => ∃ c, stretch = [c] ∧ admits c = true
  | many admits, _, stretch, _ => ∀ c ∈ stretch, admits c = true
  | seq first second, before, stretch, after =>
    -- Each part has the nearer end of the other one next to it, if the other one is not empty.
    ∃ front rear, stretch = front ++ rear ∧ first.Matches before front (rear.head?.or after) ∧
      second.Matches (front.getLast?.or before) rear after
  | alt first second, before, stretch, after =>
    first.Matches before stretch after ∨ second.Matches before stretch after

/-- **The texts that hold a stretch** that a pattern matches. -/
def Occurs (pattern : Pattern) (text : List Char) : Prop :=
  ∃ before stretch after, text = before ++ (stretch ++ after) ∧
    pattern.Matches before.getLast? stretch after.head?

/-- The characters of a text one after the other, up to a relation. -/
def run (same : Char → Char → Bool) : List Char → Pattern
  | [] => empty
  | c :: text => seq (one (same c)) (run same text)

/-- One of several patterns. -/
def oneOf : List Pattern → Pattern
  | [] => one fun _ => false
  | pattern :: patterns => alt pattern (oneOf patterns)

/-- **One of several words**, in any case, between word boundaries. -/
def wholeWord (words : List (List Char)) : Pattern :=
  seq boundary (seq (oneOf (words.map (run sameFold))) boundary)

variable {before after : Option Char} {stretch text : List Char}

theorem matches_run {same : Char → Char → Bool} :
    (run same text).Matches before stretch after ↔
      List.Forall₂ (fun c d => same c d = true) text stretch := by
  induction text generalizing before stretch with
  | nil => exact List.forall₂_nil_left_iff.symm
  | cons c text ih =>
    rw [List.forall₂_cons_left_iff]
    constructor
    · rintro ⟨_, rear, rfl, ⟨d, rfl, hd⟩, hrear⟩
      exact ⟨d, rear, hd, ih.mp hrear, rfl⟩
    · rintro ⟨d, rear, hd, hrear, rfl⟩
      exact ⟨[d], rear, rfl, ⟨d, rfl, hd⟩, ih.mpr hrear⟩

/-- A word in any case is what is equal to it up to case. -/
theorem matches_run_sameFold :
    (run sameFold text).Matches before stretch after ↔ SameFold stretch text := by
  rw [matches_run]
  induction text generalizing stretch with
  | nil => rw [List.forall₂_nil_left_iff, SameFold, List.map_nil, List.map_eq_nil_iff]
  | cons c text ih =>
    rw [List.forall₂_cons_left_iff, SameFold, List.map_cons, List.map_eq_cons_iff]
    constructor
    · rintro ⟨d, rear, hd, hrear, rfl⟩
      exact ⟨d, rear, rfl, (beq_iff_eq.mp hd).symm, ih.mp hrear⟩
    · rintro ⟨d, rear, rfl, hd, hrear⟩
      exact ⟨d, rear, beq_iff_eq.mpr hd.symm, ih.mpr hrear, rfl⟩

theorem matches_oneOf {patterns : List Pattern} :
    (oneOf patterns).Matches before stretch after ↔
      ∃ pattern ∈ patterns, pattern.Matches before stretch after := by
  induction patterns with
  | nil => simp [oneOf, Matches]
  | cons pattern patterns ih =>
    rw [List.exists_mem_cons_iff, ← ih]
    rfl

/-- One of several words is matched at its boundaries, whichever of them it is. -/
theorem matches_wholeWord {words : List (List Char)} :
    (wholeWord words).Matches before stretch after ↔
      ∃ word ∈ words, SameFold stretch word ∧ isBoundary before (stretch.head?.or after) = true ∧
        isBoundary (stretch.getLast?.or before) after = true := by
  constructor
  · rintro ⟨_, rear, hstretch, ⟨rfl, hfront⟩, middle, _, rfl, hmiddle, ⟨rfl, hbehind⟩⟩
    rw [List.nil_append, List.append_nil] at hstretch
    subst hstretch
    obtain ⟨_, hmem, hword⟩ := matches_oneOf.mp hmiddle
    obtain ⟨word, hword', rfl⟩ := List.mem_map.mp hmem
    rw [List.append_nil] at hfront
    exact ⟨word, hword', matches_run_sameFold.mp hword, hfront, hbehind⟩
  · rintro ⟨word, hword, hsame, hfront, hbehind⟩
    refine ⟨[], stretch, rfl, ⟨rfl, hfront⟩, stretch, [], by simp, ?_, rfl, hbehind⟩
    exact matches_oneOf.mpr
      ⟨_, List.mem_map_of_mem hword, matches_run_sameFold.mpr hsame⟩

/-- **An alternation occurs where one of its words does.** -/
theorem occurs_wholeWord_iff {words : List (List Char)} :
    (wholeWord words).Occurs text ↔ ∃ word ∈ words, occursAsWord word text = true := by
  simp only [Occurs, matches_wholeWord, occursAsWord_iff, List.head?_append]
  constructor
  · rintro ⟨before, stretch, after, rfl, word, hword, hmatches⟩
    exact ⟨word, hword, before, stretch, after, rfl, hmatches⟩
  · rintro ⟨word, hword, before, stretch, after, rfl, hmatches⟩
    exact ⟨before, stretch, after, rfl, word, hword, hmatches⟩

end Pattern

/-- **The search for keywords is the search for one pattern**, the alternation of all of them. -/
theorem hasKeyword_iff_occurs {screen : Screen} {text : List Char} :
    screen.hasKeyword text = true ↔ (Pattern.wholeWord screen.keywords).Occurs text := by
  rw [hasKeyword, List.any_eq_true, Pattern.occurs_wholeWord_iff]

end ScreenedQuery.Screen
