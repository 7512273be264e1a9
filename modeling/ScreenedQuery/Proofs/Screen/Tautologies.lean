import ScreenedQuery.Proofs.Screen.TautologyPattern

/-!
# Which tautologies are flagged

A tautology is written as the word `or`, a literal, a relation and another literal. A literal is a
text between quotes or a number, which may have a fraction. The screen finds some of them only: a
quoted text has to be made of word characters, and the first number must have no fraction.

## Main definitions

* `Screen.Literal`: the literals of conditions
* `Screen.Tautology`: a tautology of two literals as it is written
* `Screen.Tautology.IsFound`: the tautologies that the screen finds
* `Screen.FlaggedOtherwise`: what else a text may be flagged for

## Main results

* `Screen.Tautology.startsWithTautology_iff_isFound`: which tautologies are found where they stand
* `Screen.flagsText_tautology_iff`: which texts with a tautology are flagged
-/

namespace ScreenedQuery.Screen

open Unicode (AllBlank isBlank isBoundary isDecimalDigit isWordAt isWordChar sameFold trimStart)

variable {rest : List Char} {place : Option Char}

/-! ## Literals -/

/-- The digits of a number. -/
structure Figures where
  first : Char
  others : List Char
  isDigit_first : first.isDigit = true
  isDigit_others : ∀ c ∈ others, c.isDigit = true

def Figures.text (figures : Figures) : List Char := figures.first :: figures.others

/-- A single digit. -/
def Figures.digit (c : Char) (h : c.isDigit = true) : Figures := ⟨c, [], h, List.forall_mem_nil _⟩

/-- **The literals of conditions.** -/
inductive Literal
  /-- A text between quotes, without the quote that closes it. -/
  | quoted (quote : Char) (content : List Char) (isQuote : quote = '\'' ∨ quote = '"')
    (closed : quote ∉ content)
  | whole (figures : Figures)
  | fraction (figures places : Figures)

namespace Literal

/-- A literal as it is written. -/
def text : Literal → List Char
  | quoted quote content _ _ => quote :: (content ++ [quote])
  | whole figures => figures.text
  | fraction figures places => figures.text ++ '.' :: places.text

/-- The literals that the screen reads to their end. -/
def IsPlain : Literal → Prop
  | quoted _ content _ _ => ∀ c ∈ content, isWordChar c = true
  | whole _ => True
  | fraction _ _ => False

/-- The literals that the screen reads to their end or up to the point of a number. -/
def StartsPlain : Literal → Prop
  | quoted _ content _ _ => ∀ c ∈ content, isWordChar c = true
  | whole _ | fraction _ _ => True

end Literal

theorem Figures.isOperand (figures : Figures) : IsOperand figures.text :=
  .digits (Unicode.isDecimalDigit_of_isDigit figures.isDigit_first) fun c hc =>
    Unicode.isDecimalDigit_of_isDigit (figures.isDigit_others c hc)

theorem Literal.isOperand {literal : Literal} (h : literal.IsPlain) : IsOperand literal.text := by
  cases literal with
  | quoted quote content hquote _ => exact .quoted hquote h
  | whole figures => exact figures.isOperand
  | fraction figures places => exact h.elim

/-- A quoted text with a foreign character is not read. -/
theorem readLiteral_quoted_eq_none {quote : Char} {content : List Char}
    (hquote : quote = '\'' ∨ quote = '"') (hclosed : quote ∉ content)
    (hcontent : ¬∀ c ∈ content, isWordChar c = true) (rest : List Char) :
    readLiteral (quote :: (content ++ rest)) = none := by
  -- The run of word characters ends within the quotes, at a character that is not the quote.
  have hstops : content.dropWhile isWordChar ≠ [] :=
    fun hnil => hcontent (List.dropWhile_eq_nil_iff.mp hnil)
  obtain ⟨c, behind, hdrop⟩ := List.exists_cons_of_ne_nil hstops
  have hmem : c ∈ content := (List.dropWhile_suffix isWordChar).subset (by rw [hdrop]; simp)
  have hne : c ≠ quote := fun heq => hclosed (heq ▸ hmem)
  have hwhole : (content ++ rest).dropWhile isWordChar = c :: (behind ++ rest) := by
    rw [List.dropWhile_append, hdrop]
    rfl
  rw [readLiteral, if_pos hquote, hwhole]
  exact if_neg hne

/-- **Which first literals are read**: the plain ones in front of what is no digit, and the whole
part of a number with a fraction. -/
theorem Literal.readLiteral_first (literal : Literal)
    (hrest : ∀ c ∈ rest.head?, isDecimalDigit c = false) :
    (literal.IsPlain ∧ readLiteral (literal.text ++ rest) = some rest) ∨
      ¬literal.IsPlain ∧ (readLiteral (literal.text ++ rest)).bind readRelation = none := by
  by_cases hplain : literal.IsPlain
  · exact .inl ⟨hplain, (isOperand hplain).readLiteral_append hrest⟩
  · refine .inr ⟨hplain, ?_⟩
    cases literal with
    | quoted quote content hquote hclosed =>
      have hnone := readLiteral_quoted_eq_none hquote hclosed hplain (quote :: rest)
      have htext : text (quoted quote content hquote hclosed) ++ rest =
          quote :: (content ++ quote :: rest) := by simp [text]
      rw [htext, hnone]
      rfl
    | whole figures => exact absurd trivial hplain
    | fraction figures places =>
      -- The point ends the digits, and no relation starts with it.
      have hpoint : readLiteral (figures.text ++ '.' :: (places.text ++ rest)) =
          some ('.' :: (places.text ++ rest)) :=
        figures.isOperand.readLiteral_append (by rintro c ⟨⟩; decide)
      have htext : text (fraction figures places) ++ rest =
          figures.text ++ '.' :: (places.text ++ rest) := by simp [text]
      have hstart : trimStart ('.' :: (places.text ++ rest)) = '.' :: (places.text ++ rest) :=
        List.dropWhile_cons_of_neg (by decide)
      rw [htext, hpoint, Option.bind_some, readRelation, hstart]
      rfl

theorem Literal.isSome_readLiteral_iff (literal : Literal) :
    (readLiteral literal.text).isSome = true ↔ literal.StartsPlain := by
  have hoperand {stretch : List Char} (h : IsOperand stretch) (rest : List Char) :
      (readLiteral (stretch ++ rest)).isSome = true ↔ True :=
    iff_true_intro (h.isSome_readLiteral rest)
  cases literal with
  | quoted quote content hquote hclosed =>
    constructor
    · intro hread
      by_contra hcontent
      rw [text, readLiteral_quoted_eq_none hquote hclosed hcontent] at hread
      cases hread
    · intro hcontent
      rw [text, readLiteral_quoted hquote hcontent]
      rfl
  | whole figures =>
    have hread := hoperand figures.isOperand []
    rwa [List.append_nil] at hread
  | fraction figures places => exact hoperand figures.isOperand _

/-- A literal starts with a character that is neither blank nor a letter. -/
theorem Literal.head (literal : Literal) (rest : List Char) :
    ∀ c ∈ (literal.text ++ rest).head?, isBlank c = false ∧ sameFold 't' c = false := by
  have hquote {quote : Char} (h : quote = '\'' ∨ quote = '"') :
      isBlank quote = false ∧ sameFold 't' quote = false := by
    rcases h with rfl | rfl <;> decide
  have hdigit {c : Char} (h : c.isDigit = true) : isBlank c = false ∧ sameFold 't' c = false := by
    have hcodes : ∀ n < 58, 48 ≤ n →
        isBlank (Char.ofNat n) = false ∧ sameFold 't' (Char.ofNat n) = false := by decide
    have hrange := isDigit_iff.mp h
    rw [← Char.ofNat_toNat c]
    exact hcodes c.toNat (by omega) hrange.1
  cases literal with
  | quoted quote content h _ => rintro c ⟨⟩; exact hquote h
  | whole figures => rintro c ⟨⟩; exact hdigit figures.isDigit_first
  | fraction figures places => rintro c ⟨⟩; exact hdigit figures.isDigit_first

/-! ## Tautologies -/

/-- **A tautology as it is written**: the word `or` in any case, a blank, and two literals with a
relation and blanks between them. -/
structure Tautology where
  word : List Char
  sameLetters : SameLetters word ['o', 'r']
  first : Literal
  before : List Char
  allBlank_before : AllBlank before
  relation : List Char
  mem_relations : relation ∈ relations
  after : List Char
  allBlank_after : AllBlank after
  second : Literal

namespace Tautology

/-- What stands behind the word `or` and its blank. -/
def comparison (written : Tautology) : List Char :=
  written.first.text ++
    (written.before ++ (written.relation ++ (written.after ++ written.second.text)))

def text (written : Tautology) : List Char := written.word ++ ' ' :: written.comparison

/-- **The tautologies that the screen finds.** -/
def IsFound (written : Tautology) : Prop := written.first.IsPlain ∧ written.second.StartsPlain

theorem startsWithComparison_iff_isFound (written : Tautology) :
    startsWithComparison written.comparison = true ↔ written.IsFound := by
  have hsecond : ∀ c ∈ written.second.text.head?, isBlank c = false := by
    intro c hc
    rw [← List.append_nil written.second.text] at hc
    exact (written.second.head [] c hc).1
  have hrelation := readRelation_append written.allBlank_before written.mem_relations
    written.allBlank_after hsecond
  rw [startsWithComparison, comparison]
  rcases written.first.readLiteral_first (isDecimalDigit_head_relation written.allBlank_before
    written.mem_relations (written.after ++ written.second.text)) with
    ⟨hplain, hread⟩ | ⟨hplain, hread⟩
  · rw [hread, Option.bind_some, hrelation, Option.bind_some, Literal.isSome_readLiteral_iff,
      IsFound]
    exact (and_iff_right hplain).symm
  · rw [hread]
    exact iff_of_false Bool.false_ne_true fun hfound => hplain hfound.1

/-- **Which tautologies are found** behind a character that does not belong to a word. -/
theorem startsWithTautology_iff_isFound (hplace : isWordAt place = false) (written : Tautology) :
    startsWithTautology place written.text = true ↔ written.IsFound := by
  have hsame := sameFold_of_sameLetters written.sameLetters
  have hread : readFolded place ['o', 'r'] written.text =
      some (written.word.getLast?.or place, ' ' :: written.comparison) :=
    readFolded_eq_some_iff.mpr ⟨written.word, rfl, hsame, rfl⟩
  have hfront : isBoundary place written.text.head? = true := by
    have hhead : isWordAt written.text.head? = isWordAt ['o', 'r'].head? := by
      refine isWordAt_of_map_eq ?_
      rw [text, List.head?_append_of_ne_nil _ (hsame.ne_nil (by decide)), ← List.head?_map,
        ← List.head?_map, hsame]
    rw [isBoundary, hplace, hhead]
    decide
  have hhead := written.first.head
    (written.before ++ (written.relation ++ (written.after ++ written.second.text)))
  have hnone : AllBlank [] := List.forall_mem_nil _
  have htrim : trimStart written.comparison = written.comparison :=
    Unicode.trimStart_append hnone fun c hc => (hhead c hc).1
  -- The first literal does not start as the word does that may stand there instead.
  have htrue : startsWithTrue written.comparison = false := by
    unfold startsWithTrue
    cases hcomparison : written.comparison with
    | nil => rfl
    | cons c behind =>
      have hc := hhead c (by rw [← comparison, hcomparison]; rfl)
      simp [readFolded, hc.2]
  have hblank : isBlank ' ' = true := rfl
  rw [startsWithTautology, hfront, hread, Bool.true_and]
  dsimp only
  rw [hblank, Bool.true_and, htrim, htrue, Bool.or_false]
  exact written.startsWithComparison_iff_isFound

end Tautology

/-- **What else a text may be flagged for**, when a tautology stands in it behind `before`: anything
but a tautology, or one at another place. -/
inductive FlaggedOtherwise (screen : Screen) (text before : List Char) : Prop
  | sequence (h : forbiddenSequences.any (occursIn · text) = true)
  | quotes (h : quotesPair text = false)
  | parentheses (h : nests text = false)
  | keyword (h : (Pattern.wholeWord screen.keywords).Occurs text)
  | tautology {front stretch behind : List Char} (htext : text = front ++ (stretch ++ behind))
    (hplace : front ≠ before)
    (h : Pattern.tautology.Matches front.getLast? stretch behind.head?)

/-- **Which texts with a tautology are flagged.** Let a tautology stand behind no word character.
Where it stands the pattern of the screen matches exactly if quoted texts are made of word
characters only and the first literal is no number with a fraction. In this case the text is
flagged, and in any other case only for something else. -/
theorem flagsText_tautology_iff (screen : Screen) {before : List Char}
    (hbefore : ∀ c ∈ before.getLast?, isWordChar c = false) (written : Tautology) :
    let text := before ++ written.text
    ((∃ stretch behind, written.text = stretch ++ behind ∧
        Pattern.tautology.Matches before.getLast? stretch behind.head?) ↔ written.IsFound) ∧
      (screen.flagsText (String.ofList text) = true ↔
        written.IsFound ∨ FlaggedOtherwise screen text before) := by
  intro text
  have hfound := written.startsWithTautology_iff_isFound (isWordAt_eq_false hbefore)
  rw [← startsWithTautology_iff]
  refine ⟨hfound, ?_⟩
  simp only [flagsText, String.toList_ofList, Bool.or_eq_true, Bool.not_eq_true']
  constructor
  · rintro ((((hsequence | hquotes) | hnests) | hkeyword) | htautology)
    · exact .inr (.sequence hsequence)
    · exact .inr (.quotes hquotes)
    · exact .inr (.parentheses hnests)
    · exact .inr (.keyword (hasKeyword_iff_occurs.mp hkeyword))
    · obtain ⟨front, stretch, behind, htext, hmatches⟩ := hasTautology_iff_occurs.mp htautology
      by_cases hplace : front = before
      · -- It is the one that was written.
        subst hplace
        refine .inl (hfound.mp (startsWithTautology_iff.mpr ⟨stretch, behind, ?_, hmatches⟩))
        exact List.append_cancel_left htext
      · exact .inr (.tautology htext hplace hmatches)
  · rintro (hwritten | hsequence | hquotes | hnests | hkeyword | ⟨htext, -, hmatches⟩)
    · exact .inr (hasTautology_iff.mpr ⟨before, written.text, rfl, hfound.mpr hwritten⟩)
    · exact .inl (.inl (.inl (.inl hsequence)))
    · exact .inl (.inl (.inl (.inr hquotes)))
    · exact .inl (.inl (.inr hnests))
    · exact .inl (.inr (hasKeyword_iff_occurs.mpr hkeyword))
    · exact .inr (hasTautology_iff_occurs.mpr ⟨_, _, _, htext, hmatches⟩)

/-- A quoted word that differs from a number with a fraction. -/
theorem flagsText_tautology_iff_word :
    let before := "id = 1 ".toList
    let written : Tautology := ⟨['O', 'r'], rfl, .quoted '\'' ['x'] (.inl rfl) (by decide), [' '],
      by decide, ['<', '>'], by decide, [], by decide,
      .fraction (.digit '2' rfl) (.digit '5' rfl)⟩
    (∀ c ∈ before.getLast?, isWordChar c = false) ∧ written.IsFound ∧
      String.ofList (before ++ written.text) = "id = 1 Or 'x' <>2.5" ∧
      Screen.flagsText {} "id = 1 Or 'x' <>2.5" = true := by
  intro before written
  have hbefore : ∀ c ∈ before.getLast?, isWordChar c = false := by
    rintro c ⟨⟩
    decide
  have hfound : written.IsFound := by
    refine ⟨List.forall_mem_singleton.mpr ?_, trivial⟩
    decide
  have htext : String.ofList (before ++ written.text) = "id = 1 Or 'x' <>2.5" := by decide
  refine ⟨hbefore, hfound, htext, ?_⟩
  rw [← htext]
  exact (flagsText_tautology_iff {} hbefore written).2.mpr (.inl hfound)

/-- **Not every tautology of two literals is flagged**: neither the equality of two numbers with
fractions is, nor that of two quoted texts with a blank. -/
theorem flagsText_not_tautology :
    let numbers : Tautology := ⟨['O', 'R'], rfl,
      .fraction (.digit '1' rfl) (.digit '5' rfl), [' '], by decide, ['='], by decide,
      [' '], by decide, .fraction (.digit '1' rfl) (.digit '5' rfl)⟩
    let texts : Tautology := ⟨['O', 'R'], rfl,
      .quoted '\'' ['a', ' ', 'b'] (.inl rfl) (by decide), [' '], by decide, ['='], by decide,
      [' '], by decide, .quoted '\'' ['a', ' ', 'b'] (.inl rfl) (by decide)⟩
    (∀ c ∈ "id = 1 ".toList.getLast?, isWordChar c = false) ∧
      ("id = 1 ".toList ++ numbers.text = "id = 1 OR 1.5 = 1.5".toList ∧
        Screen.flagsText {} "id = 1 OR 1.5 = 1.5" = false) ∧
      "id = 1 ".toList ++ texts.text = "id = 1 OR 'a b' = 'a b'".toList ∧
        Screen.flagsText {} "id = 1 OR 'a b' = 'a b'" = false := by
  refine ⟨?_, ⟨by decide, by decide⟩, by decide, by decide⟩
  rintro c ⟨⟩
  decide

end ScreenedQuery.Screen
