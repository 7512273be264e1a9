import ScreenedQuery.Proofs.Sql.Names

/-!
# The words of a text

The words of a text stand between its blanks. Blanks in quoted runs and between parentheses belong
to words, so that a name is one word, and so is a group with all that it holds.

## Main definitions

* `Sql.words`: the words of a text
* `Sql.Solid`: a text that goes into one word with what stands behind it

## Main results

* `Sql.Closed.words_append`: the words before and behind a blank
* `Sql.Closed.solid_parenthesize`, `Sql.IsQuotedName.solid`: groups and names are single words
-/

namespace ScreenedQuery.Sql

/-! ## Words -/

/-- Puts a text before the first word. -/
def glue (text : List Char) : List (List Char) → List (List Char)
  | [] => [text]
  | word :: words => (text ++ word) :: words

/-- The words of the rest of a text, when a quoted run or parentheses stand open. -/
def wordsFrom (quote : Option Char) (depth : Nat) : List Char → List (List Char)
  | [] => [[]]
  | c :: text =>
    if c = ' ' ∧ quote = none ∧ depth = 0 then [] :: wordsFrom none 0 text
    else glue [c] (wordsFrom (nextQuote quote c) (nextDepth quote depth c) text)

/-- **The words of a text.** -/
def words (text : List Char) : List (List Char) := wordsFrom none 0 text

@[simp] theorem glue_ne_nil (text : List Char) (words : List (List Char)) : glue text words ≠ [] := by
  cases words <;> simp [glue]

theorem glue_glue (first second : List Char) (words : List (List Char)) :
    glue first (glue second words) = glue (first ++ second) words := by
  cases words <;> simp [glue]

theorem glue_append (text : List Char) {words : List (List Char)} (h : words ≠ [])
    (others : List (List Char)) : glue text (words ++ others) = glue text words ++ others := by
  cases words with
  | nil => exact absurd rfl h
  | cons word words => rfl

theorem wordsFrom_ne_nil (quote : Option Char) (depth : Nat) (text : List Char) :
    wordsFrom quote depth text ≠ [] := by
  cases text with
  | nil => simp [wordsFrom]
  | cons c text =>
    rw [wordsFrom]
    split <;> simp

theorem glue_nil {words : List (List Char)} (h : words ≠ []) : glue [] words = words := by
  cases words with
  | nil => exact absurd rfl h
  | cons word words => rfl

/-- Words hold no more characters than their text. -/
theorem length_flatten_wordsFrom (quote : Option Char) (depth : Nat) (text : List Char) :
    (wordsFrom quote depth text).flatten.length ≤ text.length := by
  induction text generalizing quote depth with
  | nil => simp [wordsFrom]
  | cons c text ih =>
    rw [wordsFrom]
    split
    · have := ih none 0
      simp only [List.flatten_cons, List.nil_append, List.length_cons]
      omega
    · have := ih (nextQuote quote c) (nextDepth quote depth c)
      cases hwords : wordsFrom (nextQuote quote c) (nextDepth quote depth c) text with
      | nil => exact absurd hwords (wordsFrom_ne_nil _ _ _)
      | cons word words =>
        rw [hwords] at this
        simpa [glue] using this

theorem length_flatten_words (text : List Char) : (words text).flatten.length ≤ text.length :=
  length_flatten_wordsFrom none 0 text

/-! ## Words and scans -/

/-- Behind a blank that stands outside of quoted runs and parentheses the words start anew. -/
theorem wordsFrom_append {quote : Option Char} {opened : List Nat} {place : Nat}
    {text : List Char} (h : Scan.run ⟨quote, opened⟩ place text = some {}) (rest : List Char) :
    wordsFrom quote opened.length (text ++ ' ' :: rest) =
      wordsFrom quote opened.length text ++ words rest := by
  induction text generalizing quote opened place with
  | nil =>
    obtain ⟨rfl, rfl⟩ : quote = none ∧ opened = [] := by simpa using h
    simp [wordsFrom, words]
  | cons c text ih =>
    obtain ⟨next, hnext, hrun⟩ := advances_of_run h
    have hrest := ih hrun
    have hdepth := hnext.depth []
    rw [List.append_nil, List.append_nil] at hdepth
    rw [← hdepth] at hrest
    rw [List.cons_append, wordsFrom, wordsFrom]
    split
    · -- A blank outside starts a new word in the text as well.
      rename_i hblank
      obtain ⟨rfl, rfl, hlength⟩ := hblank
      obtain rfl := List.eq_nil_of_length_eq_zero hlength
      exact congrArg ([] :: ·) hrest
    · rw [hrest, glue_append _ (wordsFrom_ne_nil _ _ _)]

/-- **The words before and behind a blank.** -/
theorem Closed.words_append {text : List Char} (h : Closed text) (rest : List Char) :
    words (text ++ ' ' :: rest) = words text ++ words rest :=
  wordsFrom_append h rest

/-- Between parentheses nothing parts words. -/
theorem wordsFrom_inside {quote after : Option Char} {opened : List Nat} {place : Nat}
    {text : List Char} (h : Scan.run ⟨quote, opened⟩ place text = some ⟨after, []⟩)
    (rest : List Char) :
    wordsFrom quote (opened.length + 1) (text ++ rest) = glue text (wordsFrom after 1 rest) := by
  induction text generalizing quote opened place with
  | nil =>
    obtain ⟨rfl, rfl⟩ : quote = after ∧ opened = [] := by simpa using h
    exact (glue_nil (wordsFrom_ne_nil _ _ _)).symm
  | cons c text ih =>
    obtain ⟨next, hnext, hrun⟩ := advances_of_run h
    -- One parenthesis more stands open around the text, so that no blank in it counts.
    have hdepth := hnext.depth [0]
    rw [List.length_append, List.length_append, List.length_singleton] at hdepth
    rw [List.cons_append, wordsFrom, if_neg (by simp), hdepth, ih hrun, glue_glue]
    rfl

/-! ## Solid texts -/

/-- **A text that goes into one word** with what stands behind it. -/
def Solid (text : List Char) : Prop := ∀ rest, words (text ++ rest) = glue text (words rest)

namespace Solid

theorem nil : Solid [] := fun _ => (glue_nil (wordsFrom_ne_nil _ _ _)).symm

theorem append {first second : List Char} (hfirst : Solid first) (hsecond : Solid second) :
    Solid (first ++ second) := by
  intro rest
  rw [List.append_assoc, hfirst, hsecond, glue_glue]

/-- A solid text is one word. -/
theorem words_eq {text : List Char} (h : Solid text) : words text = [text] := by
  have := h []
  rw [List.append_nil] at this
  rw [this]
  simp [words, wordsFrom, glue]

/-- A text of plain characters is solid. -/
theorem of_plain {text : List Char} (h : text.all isPlain) : Solid text := by
  induction text with
  | nil => exact nil
  | cons c text ih =>
    rw [List.all_cons, Bool.and_eq_true_iff] at h
    obtain ⟨hblank, hquote, hleft, hright⟩ := isPlain_iff.mp h.1
    have hc : Solid [c] := by
      intro rest
      rw [List.singleton_append, words, wordsFrom, if_neg (by simp [hblank])]
      simp [words, nextQuote, nextDepth, *]
    exact hc.append (ih h.2)

end Solid

/-- **The words before, between and behind two blanks.** -/
theorem Closed.words_between {before word : List Char} (h : Closed before)
    (hword : word.all isPlain) (after : List Char) :
    words (before ++ ' ' :: (word ++ ' ' :: after)) = words before ++ word :: words after := by
  rw [h.words_append, (Closed.of_plain hword).words_append, (Solid.of_plain hword).words_eq]
  rfl

example : words "\"a b\" = ?1 AND (c OR d)".toList =
    ["\"a b\"".toList, ['='], ['?', '1'], ['A', 'N', 'D'], "(c OR d)".toList] := rfl

/-- **A group is solid.** -/
theorem Closed.solid_parenthesize {text : List Char} (h : Closed text) :
    Solid (Sql.parenthesize text) := by
  intro rest
  have hinside : wordsFrom none 1 (text ++ ')' :: rest) = glue text (wordsFrom none 1 (')' :: rest)) :=
    wordsFrom_inside h (')' :: rest)
  have hright : wordsFrom none 1 (')' :: rest) = glue [')'] (words rest) := by
    simp [wordsFrom, words, nextQuote, nextDepth, isQuote]
  have hleft : words ('(' :: (text ++ ')' :: rest)) =
      glue ['('] (wordsFrom none 1 (text ++ ')' :: rest)) := by
    simp [wordsFrom, words, nextQuote, nextDepth, isQuote]
  -- The group is put together from its parentheses and what stands between them.
  have hwhole : Sql.parenthesize text ++ rest = '(' :: (text ++ ')' :: rest) := by
    simp [Sql.parenthesize]
  rw [hwhole, hleft, hinside, hright, glue_glue, glue_glue]
  rfl

/-- Up to the quote that closes a quoted run nothing parts words. -/
theorem wordsFrom_run {quote : Char} {run : List Char} (h : quote ∉ run) (depth : Nat)
    (rest : List Char) :
    wordsFrom (some quote) depth (run ++ quote :: rest) =
      glue (run ++ [quote]) (wordsFrom none depth rest) := by
  induction run with
  | nil => simp [wordsFrom, nextQuote, nextDepth]
  | cons c run ih =>
    have hc : c ≠ quote := fun e => h (e ▸ List.mem_cons_self)
    rw [List.cons_append, wordsFrom, if_neg (by simp), nextQuote, if_neg hc, nextDepth,
      ih fun hmem => h (List.mem_cons_of_mem _ hmem), glue_glue]
    rfl

theorem solid_quotePart {part : List Char} (h : '"' ∉ part) : Solid (quotePart part) := by
  intro rest
  have hwhole : quotePart part ++ rest = '"' :: (part ++ '"' :: rest) := by
    simp [quotePart]
  have hleft : words ('"' :: (part ++ '"' :: rest)) =
      glue ['"'] (wordsFrom (some '"') 0 (part ++ '"' :: rest)) := by
    simp [wordsFrom, words, nextQuote, nextDepth, isQuote]
  rw [hwhole, hleft, wordsFrom_run h, glue_glue]
  rfl

/-- A name between quotes is solid. -/
theorem IsQuotedName.solid {text : List Char} (h : IsQuotedName text) : Solid text := by
  obtain ⟨parts, -, hparts, rfl⟩ := h
  refine joinWith_induction .nil (fun _ _ => .append) (.of_plain rfl) ?_
  rw [List.forall_mem_map]
  exact fun part hpart => solid_quotePart (hparts part hpart)

theorem solid_marker (placeholder : Placeholder) : Solid placeholder.marker.toList :=
  .of_plain (all_isPlain_marker placeholder)

end ScreenedQuery.Sql
