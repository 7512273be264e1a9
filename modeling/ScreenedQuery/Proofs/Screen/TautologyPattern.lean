import ScreenedQuery.Proofs.Screen.Pattern
import ScreenedQuery.Proofs.Text.Blank

/-!
# The pattern of tautologies

The screen looks for `or` and a relation between two literals, and for `or` and the word `true`. It
reads what it looks for from the left and never goes back. This is the search for one pattern, since
each part of it ends where the next one starts.

## Main definitions

* `Screen.IsOperand`: the literals that the screen reads
* `Screen.StartsComparison`, `Screen.StartsTrue`: what the screen looks for behind the word `or`
* `Screen.Pattern.tautology`: what the screen takes for a tautology

## Main results

* `Screen.startsWithComparison_iff`: two literals and a relation are found where they stand
* `Screen.startsWithTautology_iff`: a text starts with a tautology when the pattern matches there
* `Screen.hasTautology_iff_occurs`: the search for tautologies is the search for one pattern
-/

namespace ScreenedQuery.Screen

open Unicode (AllBlank isBlank isBoundary isDecimalDigit isWordAt isWordChar sameFold trimStart)

variable {text rest literal : List Char} {place : Option Char}

/-! ## Literals -/

/-- **The literals that the screen reads**: runs of word characters between quotes, and runs of
digits. -/
inductive IsOperand : List Char → Prop
  | quoted {quote : Char} {content : List Char} (hquote : quote = '\'' ∨ quote = '"')
    (hcontent : ∀ c ∈ content, isWordChar c = true) : IsOperand (quote :: (content ++ [quote]))
  | digits {c : Char} {digits : List Char} (hfirst : isDecimalDigit c = true)
    (hrest : ∀ c ∈ digits, isDecimalDigit c = true) : IsOperand (c :: digits)

theorem isWordChar_quote {quote : Char} (h : quote = '\'' ∨ quote = '"') :
    isWordChar quote = false := by
  rcases h with rfl | rfl <;> decide

theorem isDecimalDigit_of_isBlank {c : Char} (h : isBlank c = true) : isDecimalDigit c = false :=
  Unicode.eq_false_of_isBlank (by decide +kernel) h

theorem isWordChar_of_isBlank {c : Char} (h : isBlank c = true) : isWordChar c = false :=
  Unicode.eq_false_of_isBlank (by decide +kernel) h

/-- A literal starts with no blank. -/
theorem IsOperand.isBlank_head (h : IsOperand literal) (rest : List Char) :
    ∀ c ∈ (literal ++ rest).head?, isBlank c = false := by
  cases h with
  | @quoted quote _ hquote =>
    rintro c ⟨⟩
    rcases hquote with rfl | rfl <;> decide
  | @digits d _ hfirst =>
    rintro c ⟨⟩
    rw [← Bool.not_eq_true]
    intro hblank
    rw [isDecimalDigit_of_isBlank hblank] at hfirst
    cases hfirst

theorem readLiteral_quoted {quote : Char} (hquote : quote = '\'' ∨ quote = '"')
    {content : List Char} (hcontent : ∀ c ∈ content, isWordChar c = true) (rest : List Char) :
    readLiteral (quote :: (content ++ quote :: rest)) = some rest := by
  have hdrop : (content ++ quote :: rest).dropWhile isWordChar = quote :: rest := by
    refine (span_append hcontent ?_).2
    rintro c ⟨⟩
    exact isWordChar_quote hquote
  rw [readLiteral, if_pos hquote, hdrop]
  exact if_pos rfl

theorem readLiteral_digit {c : Char} (h : isDecimalDigit c = true) (text : List Char) :
    readLiteral (c :: text) = some (text.dropWhile isDecimalDigit) := by
  have hquote : ¬(c = '\'' ∨ c = '"') := by
    rintro (rfl | rfl) <;> exact absurd h (by decide)
  rw [readLiteral, if_neg hquote, if_pos h]

/-- **A literal is read** in front of what is no digit. -/
theorem IsOperand.readLiteral_append (h : IsOperand literal)
    (hrest : ∀ c ∈ rest.head?, isDecimalDigit c = false) :
    readLiteral (literal ++ rest) = some rest := by
  cases h with
  | @quoted quote content hquote hcontent =>
    have hread := readLiteral_quoted hquote hcontent rest
    simpa using hread
  | @digits c digits hfirst hdigits =>
    rw [List.cons_append, readLiteral_digit hfirst, (span_append hdigits hrest).2]

/-- A literal is read, or a longer one, whatever follows it. -/
theorem IsOperand.isSome_readLiteral (h : IsOperand literal) (rest : List Char) :
    (readLiteral (literal ++ rest)).isSome = true := by
  cases h with
  | @quoted quote content hquote hcontent =>
    have hread := readLiteral_quoted hquote hcontent rest
    simp [hread]
  | @digits c digits hfirst hdigits =>
    rw [List.cons_append, readLiteral_digit hfirst]
    rfl

/-- What is read is a literal. -/
theorem exists_of_readLiteral (h : readLiteral text = some rest) :
    ∃ literal, IsOperand literal ∧ text = literal ++ rest := by
  cases text with
  | nil => cases h
  | cons c text =>
    rw [readLiteral] at h
    split at h
    · rename_i hquote
      split at h
      · rename_i d after hdrop
        split at h
        · rename_i hd
          obtain rfl := Option.some.inj h
          subst hd
          refine ⟨d :: (text.takeWhile isWordChar ++ [d]),
            .quoted hquote fun _ => List.mem_takeWhile_imp, ?_⟩
          have htext : text.takeWhile isWordChar ++ text.dropWhile isWordChar = text :=
            List.takeWhile_append_dropWhile
          rw [hdrop] at htext
          simpa using htext.symm
        · cases h
      · cases h
    · split at h
      · rename_i hdigit
        obtain rfl := Option.some.inj h
        refine ⟨c :: text.takeWhile isDecimalDigit,
          .digits hdigit fun _ => List.mem_takeWhile_imp, ?_⟩
        rw [List.cons_append, List.takeWhile_append_dropWhile]
      · cases h

/-! ## Relations -/

/-- The signs of equality and inequality. -/
def relations : List (List Char) := [['='], ['<', '>'], ['!', '=']]

theorem isBlank_head_relation {relation : List Char} (h : relation ∈ relations)
    (rest : List Char) : ∀ c ∈ (relation ++ rest).head?, isBlank c = false := by
  simp only [relations, List.mem_cons, List.not_mem_nil, or_false] at h
  rcases h with rfl | rfl | rfl <;> rintro c ⟨⟩ <;> decide

/-- Neither a relation nor a blank before it is a digit. -/
theorem isDecimalDigit_head_relation {before relation : List Char} (hbefore : AllBlank before)
    (h : relation ∈ relations) (rest : List Char) :
    ∀ c ∈ (before ++ (relation ++ rest)).head?, isDecimalDigit c = false := by
  cases before with
  | cons b before =>
    rintro c ⟨⟩
    exact isDecimalDigit_of_isBlank (hbefore b List.mem_cons_self)
  | nil =>
    simp only [relations, List.mem_cons, List.not_mem_nil, or_false] at h
    rcases h with rfl | rfl | rfl <;> rintro c ⟨⟩ <;> decide

/-- **A relation is read** with the blanks around it. -/
theorem readRelation_append {before relation after : List Char} (hbefore : AllBlank before)
    (hrelation : relation ∈ relations) (hafter : AllBlank after)
    (hrest : ∀ c ∈ rest.head?, isBlank c = false) :
    readRelation (before ++ (relation ++ (after ++ rest))) = some rest := by
  have hstart := Unicode.trimStart_append hbefore (isBlank_head_relation hrelation (after ++ rest))
  have hend := Unicode.trimStart_append hafter hrest
  rw [readRelation, hstart]
  simp only [relations, List.mem_cons, List.not_mem_nil, or_false] at hrelation
  rcases hrelation with rfl | rfl | rfl <;> exact congrArg some hend

/-- What is read is a relation with blanks around it. -/
theorem exists_of_readRelation (h : readRelation text = some rest) :
    ∃ before, AllBlank before ∧ ∃ relation ∈ relations, ∃ after, AllBlank after ∧
      text = before ++ (relation ++ (after ++ rest)) := by
  have hsign : ∃ relation ∈ relations, ∃ behind, trimStart text = relation ++ behind ∧
      trimStart behind = rest := by
    unfold readRelation at h
    split at h
    · exact ⟨['='], by decide, _, by assumption, Option.some.inj h⟩
    · exact ⟨['<', '>'], by decide, _, by assumption, Option.some.inj h⟩
    · exact ⟨['!', '='], by decide, _, by assumption, Option.some.inj h⟩
    · cases h
  obtain ⟨before, hbefore, htext⟩ := Unicode.exists_trimStart text
  obtain ⟨relation, hrelation, behind, hstart, rfl⟩ := hsign
  obtain ⟨after, hafter, hbehind⟩ := Unicode.exists_trimStart behind
  refine ⟨before, hbefore, relation, hrelation, after, hafter, ?_⟩
  rw [← hbehind, ← hstart]
  exact htext

/-! ## What follows the word `or` -/

/-- A text that starts with two literals and a relation between them. -/
def StartsComparison (text : List Char) : Prop :=
  ∃ first before relation after second rest,
    text = first ++ (before ++ (relation ++ (after ++ (second ++ rest)))) ∧ IsOperand first ∧
      AllBlank before ∧ relation ∈ relations ∧ AllBlank after ∧ IsOperand second

/-- **Two literals with a relation between them are found** where they stand. -/
theorem startsWithComparison_iff : startsWithComparison text = true ↔ StartsComparison text := by
  rw [startsWithComparison, Option.isSome_iff_exists]
  constructor
  · rintro ⟨rest, hread⟩
    obtain ⟨middle, hmiddle, hreadSecond⟩ := Option.bind_eq_some_iff.mp hread
    obtain ⟨behind, hreadFirst, hreadRelation⟩ := Option.bind_eq_some_iff.mp hmiddle
    obtain ⟨first, hfirst, rfl⟩ := exists_of_readLiteral hreadFirst
    obtain ⟨before, hbefore, relation, hmem, after, hafter, rfl⟩ :=
      exists_of_readRelation hreadRelation
    obtain ⟨second, hsecond, rfl⟩ := exists_of_readLiteral hreadSecond
    exact ⟨first, before, relation, after, second, rest, rfl, hfirst, hbefore, hmem, hafter,
      hsecond⟩
  · rintro ⟨first, before, relation, after, second, rest, rfl, hfirst, hbefore, hmem, hafter,
      hsecond⟩
    rw [hfirst.readLiteral_append (isDecimalDigit_head_relation hbefore hmem _), Option.bind_some,
      readRelation_append hbefore hmem hafter (hsecond.isBlank_head rest), Option.bind_some]
    exact Option.isSome_iff_exists.mp (hsecond.isSome_readLiteral rest)

/-- A text that starts with the word `true`; nothing is asked of what stands before it. -/
def StartsTrue (text : List Char) : Prop :=
  ∃ word rest, text = word ++ rest ∧ SameFold word ['t', 'r', 'u', 'e'] ∧
    isBoundary word.getLast? rest.head? = true

theorem startsWithTrue_iff : startsWithTrue text = true ↔ StartsTrue text := by
  unfold startsWithTrue
  constructor
  · intro h
    split at h
    · rename_i last rest hread
      obtain ⟨word, rfl, hsame, rfl⟩ := readFolded_eq_some_iff.mp hread
      rw [Option.or_none] at h
      exact ⟨word, rest, rfl, hsame, h⟩
    · cases h
  · rintro ⟨word, rest, rfl, hsame, hbehind⟩
    rw [readFolded_eq_some_iff.mpr ⟨word, rfl, hsame, rfl⟩]
    rw [← Option.or_none (o := word.getLast?)] at hbehind
    exact hbehind

/-- Neither form of a tautology starts with a blank. -/
theorem isBlank_head_of_starts (h : StartsComparison text ∨ StartsTrue text) :
    ∀ c ∈ text.head?, isBlank c = false := by
  rcases h with ⟨first, before, relation, after, second, rest, rfl, hfirst, -⟩ |
    ⟨word, rest, rfl, hsame, -⟩
  · exact hfirst.isBlank_head _
  · -- The first letter of the word is a word character, and no blank is one.
    obtain ⟨c, word, rfl, hc, -⟩ := List.map_eq_cons_iff.mp hsame
    have hword : isWordChar c = true := by
      rw [Unicode.isWordChar_of_fold_eq hc]
      decide
    rintro d ⟨⟩
    rw [← Bool.not_eq_true]
    intro hblank
    rw [isWordChar_of_isBlank hblank] at hword
    cases hword

/-- **What follows the word `or` in a tautology** stands behind at least one blank. -/
theorem startsWithTautology_iff_exists : startsWithTautology place text = true ↔
    isBoundary place text.head? = true ∧ ∃ word blank blanks rest,
      text = word ++ blank :: (blanks ++ rest) ∧ SameFold word ['o', 'r'] ∧ isBlank blank = true ∧
        AllBlank blanks ∧ (StartsComparison rest ∨ StartsTrue rest) := by
  rw [startsWithTautology, Bool.and_eq_true]
  refine and_congr_right fun _ => ?_
  constructor
  · intro h
    split at h
    · rename_i last blank behind hread
      obtain ⟨word, rfl, hsame, -⟩ := readFolded_eq_some_iff.mp hread
      rw [Bool.and_eq_true, Bool.or_eq_true, startsWithComparison_iff, startsWithTrue_iff] at h
      obtain ⟨blanks, hblanks, hbehind⟩ := Unicode.exists_trimStart behind
      exact ⟨word, blank, blanks, trimStart behind, by rw [← hbehind], hsame, h.1, hblanks, h.2⟩
    · cases h
  · rintro ⟨word, blank, blanks, rest, rfl, hsame, hblank, hblanks, hstarts⟩
    rw [readFolded_eq_some_iff.mpr ⟨word, rfl, hsame, rfl⟩]
    -- All blanks are skipped, since the form behind them starts with none.
    have htrim : trimStart (blanks ++ rest) = rest :=
      Unicode.trimStart_append hblanks (isBlank_head_of_starts hstarts)
    dsimp only
    rw [htrim, Bool.and_eq_true, Bool.or_eq_true, startsWithComparison_iff, startsWithTrue_iff]
    exact ⟨hblank, hstarts⟩

/-! ## The pattern -/

namespace Pattern

/-- A run of word characters between two quotes of a kind. -/
def quoted (quote : Char) : Pattern :=
  seq (one (· == quote)) (seq (many isWordChar) (one (· == quote)))

def operand : Pattern :=
  alt (quoted '\'') (alt (quoted '"') (seq (one isDecimalDigit) (many isDecimalDigit)))

def relation : Pattern := oneOf (relations.map (run (· == ·)))

/-- Two literals with a relation between them, and blanks around it. -/
def comparison : Pattern :=
  seq operand (seq (many isBlank) (seq relation (seq (many isBlank) operand)))

/-- The word `true` up to a word boundary. -/
def trueWord : Pattern := seq (run sameFold ['t', 'r', 'u', 'e']) boundary

/-- A pattern behind the word `or` and blanks. -/
def behindOr (pattern : Pattern) : Pattern :=
  seq boundary (seq (run sameFold ['o', 'r']) (seq (one isBlank) (seq (many isBlank) pattern)))

/-- **What the screen takes for a tautology.** -/
def tautology : Pattern := alt (behindOr comparison) (behindOr trueWord)

variable {before after : Option Char} {stretch : List Char}

theorem matches_quoted {quote : Char} : (quoted quote).Matches before stretch after ↔
    ∃ content, stretch = quote :: (content ++ [quote]) ∧ ∀ c ∈ content, isWordChar c = true := by
  constructor
  · rintro ⟨_, _, rfl, ⟨c, rfl, hc⟩, content, _, rfl, hcontent, d, rfl, hd⟩
    obtain rfl : c = quote := beq_iff_eq.mp hc
    obtain rfl : d = c := beq_iff_eq.mp hd
    exact ⟨content, rfl, hcontent⟩
  · rintro ⟨content, rfl, hcontent⟩
    exact ⟨[quote], content ++ [quote], rfl, ⟨quote, rfl, beq_self_eq_true quote⟩, content, [quote],
      rfl, hcontent, quote, rfl, beq_self_eq_true quote⟩

theorem matches_operand : operand.Matches before stretch after ↔ IsOperand stretch := by
  constructor
  · rintro (h | h | ⟨_, digits, rfl, ⟨c, rfl, hc⟩, hdigits⟩)
    · obtain ⟨content, rfl, hcontent⟩ := matches_quoted.mp h
      exact .quoted (.inl rfl) hcontent
    · obtain ⟨content, rfl, hcontent⟩ := matches_quoted.mp h
      exact .quoted (.inr rfl) hcontent
    · exact .digits hc hdigits
  · rintro (⟨rfl | rfl, hcontent⟩ | ⟨hc, hdigits⟩)
    · exact .inl (matches_quoted.mpr ⟨_, rfl, hcontent⟩)
    · exact .inr (.inl (matches_quoted.mpr ⟨_, rfl, hcontent⟩))
    · exact .inr (.inr ⟨[_], _, rfl, ⟨_, rfl, hc⟩, hdigits⟩)

theorem matches_relation : relation.Matches before stretch after ↔ stretch ∈ relations := by
  have hrun (sign : List Char) :
      (run (· == ·) sign).Matches before stretch after ↔ sign = stretch := by
    rw [matches_run]
    simp only [beq_iff_eq, List.forall₂_eq_eq_eq]
  simp only [relation, matches_oneOf, List.mem_map, exists_exists_and_eq_and, hrun, exists_eq_right]

theorem matches_comparison : comparison.Matches before stretch after ↔
    ∃ first blanks sign others second,
      stretch = first ++ (blanks ++ (sign ++ (others ++ second))) ∧ IsOperand first ∧
        AllBlank blanks ∧ sign ∈ relations ∧ AllBlank others ∧ IsOperand second := by
  constructor
  · rintro ⟨first, _, rfl, hfirst, blanks, _, rfl, hblanks, sign, _, rfl, hsign, others, second,
      rfl, hothers, hsecond⟩
    exact ⟨first, blanks, sign, others, second, rfl, matches_operand.mp hfirst, hblanks,
      matches_relation.mp hsign, hothers, matches_operand.mp hsecond⟩
  · rintro ⟨first, blanks, sign, others, second, rfl, hfirst, hblanks, hsign, hothers, hsecond⟩
    exact ⟨first, _, rfl, matches_operand.mpr hfirst, blanks, _, rfl, hblanks, sign, _, rfl,
      matches_relation.mpr hsign, others, second, rfl, hothers, matches_operand.mpr hsecond⟩

theorem matches_trueWord : trueWord.Matches before stretch after ↔
    SameFold stretch ['t', 'r', 'u', 'e'] ∧ isBoundary stretch.getLast? after = true := by
  have hlast (h : SameFold stretch ['t', 'r', 'u', 'e']) :
      stretch.getLast?.or before = stretch.getLast? := by
    rw [List.getLast?_eq_some_getLast (h.ne_nil (by decide))]
    rfl
  constructor
  · rintro ⟨word, _, hstretch, hword, rfl, hbehind⟩
    rw [List.append_nil] at hstretch
    subst hstretch
    have hsame := matches_run_sameFold.mp hword
    rw [hlast hsame] at hbehind
    exact ⟨hsame, hbehind⟩
  · rintro ⟨hsame, hbehind⟩
    rw [← hlast hsame] at hbehind
    exact ⟨stretch, [], by simp, matches_run_sameFold.mpr hsame, rfl, hbehind⟩

theorem matches_behindOr {pattern : Pattern} :
    (behindOr pattern).Matches before stretch after ↔
      isBoundary before (stretch.head?.or after) = true ∧ ∃ word blank blanks rest,
        stretch = word ++ blank :: (blanks ++ rest) ∧ SameFold word ['o', 'r'] ∧
          isBlank blank = true ∧ AllBlank blanks ∧
          pattern.Matches (blanks.getLast?.or (some blank)) rest after := by
  constructor
  · rintro ⟨_, _, rfl, ⟨rfl, hfront⟩, word, _, rfl, hword, _, _, rfl, ⟨blank, rfl, hblank⟩, blanks,
      rest, rfl, hblanks, hrest⟩
    exact ⟨hfront, word, blank, blanks, rest, rfl, matches_run_sameFold.mp hword, hblank, hblanks,
      hrest⟩
  · rintro ⟨hfront, word, blank, blanks, rest, rfl, hword, hblank, hblanks, hrest⟩
    exact ⟨[], _, rfl, ⟨rfl, hfront⟩, word, _, rfl, matches_run_sameFold.mpr hword, [blank], _, rfl,
      ⟨blank, rfl, hblank⟩, blanks, rest, rfl, hblanks, hrest⟩

end Pattern

theorem startsComparison_iff_matches : StartsComparison text ↔ ∃ stretch after,
    text = stretch ++ after ∧ Pattern.comparison.Matches place stretch after.head? := by
  simp only [Pattern.matches_comparison]
  constructor
  · rintro ⟨first, blanks, sign, others, second, rest, rfl, h⟩
    exact ⟨_, rest, by simp, first, blanks, sign, others, second, rfl, h⟩
  · rintro ⟨_, rest, rfl, first, blanks, sign, others, second, rfl, h⟩
    exact ⟨first, blanks, sign, others, second, rest, by simp, h⟩

theorem startsTrue_iff_matches : StartsTrue text ↔ ∃ stretch after,
    text = stretch ++ after ∧ Pattern.trueWord.Matches place stretch after.head? := by
  simp only [Pattern.matches_trueWord]
  rfl

/-- **A text starts with a tautology** when its pattern matches there. -/
theorem startsWithTautology_iff : startsWithTautology place text = true ↔ ∃ stretch after,
    text = stretch ++ after ∧ Pattern.tautology.Matches place stretch after.head? := by
  rw [startsWithTautology_iff_exists]
  constructor
  · rintro ⟨hfront, word, blank, blanks, rest, rfl, hword, hblank, hblanks, hstarts⟩
    -- The stretch goes on to the end of the form behind the blanks.
    rw [@startsComparison_iff_matches rest (blanks.getLast?.or (some blank)),
      @startsTrue_iff_matches rest (blanks.getLast?.or (some blank))] at hstarts
    have hbehind {pattern : Pattern} {stretch after : List Char} (hrest : rest = stretch ++ after)
        (h : pattern.Matches (blanks.getLast?.or (some blank)) stretch after.head?) :
        (Pattern.behindOr pattern).Matches place (word ++ blank :: (blanks ++ stretch))
          after.head? := by
      refine Pattern.matches_behindOr.mpr ⟨?_, word, blank, blanks, stretch, rfl, hword, hblank,
        hblanks, h⟩
      rw [← List.head?_append]
      simpa [hrest] using hfront
    rcases hstarts with ⟨stretch, after, hrest, h⟩ | ⟨stretch, after, hrest, h⟩
    · exact ⟨_, after, by simp [hrest], .inl (hbehind hrest h)⟩
    · exact ⟨_, after, by simp [hrest], .inr (hbehind hrest h)⟩
  · rintro ⟨stretch, after, rfl, h | h⟩
    all_goals
      obtain ⟨hfront, word, blank, blanks, rest, rfl, hword, hblank, hblanks, hrest⟩ :=
        Pattern.matches_behindOr.mp h
      rw [← List.head?_append] at hfront
      refine ⟨hfront, word, blank, blanks, rest ++ after, by simp, hword, hblank, hblanks, ?_⟩
    · exact .inl (startsComparison_iff_matches.mpr ⟨rest, after, rfl, hrest⟩)
    · exact .inr (startsTrue_iff_matches.mpr ⟨rest, after, rfl, hrest⟩)

/-- A text holds a tautology at one of its places. -/
theorem hasTautologyFrom_iff : hasTautologyFrom place text = true ↔ ∃ before rest,
    text = before ++ rest ∧ startsWithTautology (before.getLast?.or place) rest = true := by
  induction text generalizing place with
  | nil =>
    refine iff_of_false Bool.false_ne_true ?_
    rintro ⟨before, rest, htext, hstarts⟩
    obtain ⟨rfl, rfl⟩ := List.append_eq_nil_iff.mp htext.symm
    simp [startsWithTautology, readFolded] at hstarts
  | cons c text ih =>
    rw [hasTautologyFrom, Bool.or_eq_true, ih]
    constructor
    · rintro (h | ⟨before, rest, rfl, h⟩)
      · exact ⟨[], c :: text, rfl, h⟩
      · exact ⟨c :: before, rest, rfl, by rwa [getLast?_cons_or]⟩
    · rintro ⟨before, rest, htext, h⟩
      cases before with
      | nil => exact .inl (by rw [htext]; exact h)
      | cons d before =>
        obtain ⟨rfl, rfl⟩ := List.cons.inj htext
        exact .inr ⟨before, rest, rfl, by rwa [← getLast?_cons_or]⟩

theorem hasTautology_iff : hasTautology text = true ↔ ∃ before rest,
    text = before ++ rest ∧ startsWithTautology before.getLast? rest = true := by
  rw [hasTautology, hasTautologyFrom_iff]
  simp only [Option.or_none]

/-- **The search for tautologies is the search for one pattern.** -/
theorem hasTautology_iff_occurs : hasTautology text = true ↔ Pattern.tautology.Occurs text := by
  rw [hasTautology_iff]
  constructor
  · rintro ⟨before, rest, rfl, hstarts⟩
    obtain ⟨stretch, after, rfl, hmatches⟩ := startsWithTautology_iff.mp hstarts
    exact ⟨before, stretch, after, rfl, hmatches⟩
  · rintro ⟨before, stretch, after, rfl, hmatches⟩
    exact ⟨before, _, rfl, startsWithTautology_iff.mpr ⟨stretch, after, rfl, hmatches⟩⟩

end ScreenedQuery.Screen
