import ScreenedQuery.Proofs.Number.Digits
import ScreenedQuery.Proofs.Sql.Conditions

/-!
# The tokens of written statements

What a statement is written with falls into the tokens that were meant. A token ends where a blank
or a closing parenthesis stands behind it; names between quotes, keywords, equality signs and
placeholders are written in front of one.

## Main definitions

* `Sql.Lexes`: the tokens of a text, without a count of steps
* `Sql.Spells`: a text that stands for tokens in front of whatever ends a token

## Main results

* `Sql.Lexes.tokens_eq`: the tokens are found in as many steps as the text has characters
* `Sql.spells_quotePart`, `Sql.spells_marker`, `Sql.spells_word`: what is written as one token
* `Sql.Spells.parenthesize`, `Sql.Spells.append`: what is put together
-/

namespace ScreenedQuery.Sql

/-- **The tokens of a text.** -/
inductive Lexes : List Char → List Token → Prop
  | nil : Lexes [] []
  | gap {c : Char} {text : List Char} {row : List Token} (blank : isGap c = true)
      (behind : Lexes text row) : Lexes (c :: text) row
  | token {c : Char} {text rest : List Char} {token : Token} {row : List Token}
      (visible : isGap c = false) (read : readToken (c :: text) = some (token, rest))
      (shorter : rest.length ≤ text.length) (behind : Lexes rest row) :
      Lexes (c :: text) (token :: row)

theorem Lexes.tokensWithin_eq {text : List Char} {row : List Token} (h : Lexes text row)
    {steps : Nat} (hsteps : text.length ≤ steps) : tokensWithin steps text = some row := by
  -- A token takes one step and at least one character; blanks take characters only.
  induction h generalizing steps with
  | nil => cases steps <;> rfl
  | @gap c text row hblank hbehind ih =>
    have hskip : (c :: text).dropWhile isGap = text.dropWhile isGap := by simp [hblank]
    have hsame : tokensWithin steps (c :: text) = tokensWithin steps text := by
      cases steps <;> simp only [tokensWithin, hskip]
    rw [hsame]
    exact ih (by rw [List.length_cons] at hsteps; omega)
  | @token c text rest token row hvisible hread hshorter hbehind ih =>
    rw [List.length_cons] at hsteps
    obtain ⟨steps, rfl⟩ : ∃ n, steps = n + 1 := ⟨steps - 1, by omega⟩
    have hstay : (c :: text).dropWhile isGap = c :: text := by simp [hvisible]
    simp only [tokensWithin, hstay, hread, Option.bind_eq_bind, Option.bind_some]
    rw [ih (by omega)]
    rfl

/-- **The tokens are found** in as many steps as the text has characters. -/
theorem Lexes.tokens_eq {text : List Char} {row : List Token} (h : Lexes text row) :
    tokens text = some row :=
  h.tokensWithin_eq le_rfl

/-! ## Texts in front of what ends a token -/

/-- What ends a token: a blank, a closing parenthesis, or the end of the text. -/
def Breaks (rest : List Char) : Prop := ∀ c ∈ rest.head?, c = ' ' ∨ c = ')'

/-- **A text that stands for tokens** in front of whatever ends a token. -/
def Spells (text : List Char) (row : List Token) : Prop :=
  ∀ rest behind, Breaks rest → Lexes rest behind → Lexes (text ++ rest) (row ++ behind)

theorem breaks_nil : Breaks [] := by simp [Breaks]

theorem breaks_blank (rest : List Char) : Breaks (' ' :: rest) := by simp [Breaks]

theorem breaks_close (rest : List Char) : Breaks (')' :: rest) := by simp [Breaks]

/-- No character that a token goes on with ends it. -/
theorem Breaks.head_eq_false {rest : List Char} (h : Breaks rest) {p : Char → Bool}
    (hblank : p ' ' = false) (hclose : p ')' = false) : ∀ c ∈ rest.head?, p c = false := by
  intro c hc
  rcases h c hc with rfl | rfl
  · exact hblank
  · exact hclose

theorem Lexes.blank {text : List Char} {row : List Token} (h : Lexes text row) :
    Lexes (' ' :: text) row := .gap rfl h

theorem Lexes.openParen {text : List Char} {row : List Token} (h : Lexes text row) :
    Lexes ('(' :: text) (.sign ['('] :: row) := .token rfl rfl le_rfl h

theorem Lexes.closeParen {text : List Char} {row : List Token} (h : Lexes text row) :
    Lexes (')' :: text) (.sign [')'] :: row) := .token rfl rfl le_rfl h

/-- A text that is read as one token. -/
theorem spells_of_readToken {c : Char} {text : List Char} {token : Token}
    (hvisible : isGap c = false)
    (hread : ∀ rest, Breaks rest → readToken (c :: (text ++ rest)) = some (token, rest)) :
    Spells (c :: text) [token] := by
  intro rest behind hrest hbehind
  exact .token hvisible (hread rest hrest) (by simp) hbehind

namespace Spells

variable {first second : List Char} {row other : List Token}

/-- Two texts with a blank between them. -/
theorem append (hfirst : Spells first row) (hsecond : Spells second other) :
    Spells (first ++ ' ' :: second) (row ++ other) := by
  intro rest behind hrest hbehind
  have h := hfirst _ _ (breaks_blank _) (hsecond rest behind hrest hbehind).blank
  simpa using h

theorem parenthesize (h : Spells first row) :
    Spells (parenthesize first) (.sign ['('] :: (row ++ [.sign [')']])) := by
  intro rest behind hrest hbehind
  have hinner := h _ _ (breaks_close rest) hbehind.closeParen
  simpa [Sql.parenthesize] using hinner.openParen

/-- A text at the end. -/
theorem lexes (h : Spells first row) : Lexes first row := by
  simpa using h [] [] breaks_nil .nil

end Spells

/-! ## Single tokens -/

/-- A keyword or another bare word. -/
theorem spells_word {c : Char} {word : List Char} (hstart : isWordStart c = true)
    (hvisible : isGap c = false) (hquotes : c ≠ '\'' ∧ c ≠ '"' ∧ c ≠ '?')
    (hrest : word.all isWordRest = true) : Spells (c :: word) [.word (c :: word)] := by
  refine spells_of_readToken hvisible fun rest hbreaks => ?_
  obtain ⟨htake, hdrop⟩ :=
    span_append (List.all_eq_true.mp hrest) (hbreaks.head_eq_false rfl rfl)
  rw [readToken, htake, hdrop, if_pos hstart]
  all_goals simp [hquotes]

/-- The sign of equality. -/
theorem spells_equal : Spells ['='] [.sign ['=']] := by
  refine spells_of_readToken rfl fun rest hbreaks => ?_
  cases rest with
  | nil => rfl
  | cons c rest =>
    rcases hbreaks c rfl with rfl | rfl
    · rfl
    · rfl

theorem readQuoted_append {quote : Char} {inner : List Char} (h : quote ∉ inner)
    {rest : List Char} (hrest : ∀ c ∈ rest.head?, c ≠ quote) :
    readQuoted quote (inner ++ quote :: rest) = some (inner, rest) := by
  induction inner with
  | nil =>
    cases rest with
    | nil => simp [readQuoted]
    | cons c rest => simp [readQuoted, hrest c rfl]
  | cons c inner ih =>
    have hc : c ≠ quote := fun e => h (e ▸ List.mem_cons_self)
    have hinner := ih fun hmem => h (List.mem_cons_of_mem _ hmem)
    -- The last quote stands behind the character, so that one more is there to look at.
    cases inner with
    | nil => simpa [readQuoted, hc] using hinner
    | cons d inner => simpa [readQuoted, hc] using hinner

/-- A name between double quotes. -/
theorem spells_quotePart {part : List Char} (h : '"' ∉ part) :
    Spells (quotePart part) [.name part] := by
  refine spells_of_readToken rfl fun rest hbreaks => ?_
  have hrest : ∀ c ∈ rest.head?, c ≠ '"' := by
    intro c hc
    rcases hbreaks c hc with rfl | rfl <;> decide
  rw [List.append_assoc, List.singleton_append]
  simp only [readToken, readQuoted_append h hrest, Option.map_some]

/-- A placeholder. -/
theorem spells_marker (placeholder : Placeholder) :
    Spells placeholder.marker.toList [.marker (some (placeholder.index + 1))] := by
  rw [marker_toList]
  refine spells_of_readToken rfl fun rest hbreaks => ?_
  have hdigits : Number.splitDigits (Nat.toDigits 10 (placeholder.index + 1) ++ rest) = _ :=
    Number.splitDigits_append (fun c hc => Number.isDigit_of_mem_toDigits hc)
      (hbreaks.head_eq_false rfl rfl)
  have hne : (Nat.toDigits 10 (placeholder.index + 1)).isEmpty = false := by
    simp [Nat.toDigits_ne_nil]
  simp only [readToken, hdigits, hne, Number.digitsValue_toDigits]
  rfl

end ScreenedQuery.Sql
