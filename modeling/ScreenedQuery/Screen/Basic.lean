import ScreenedQuery.Screen.FieldName
import ScreenedQuery.Screen.Nesting
import ScreenedQuery.Screen.Tautology

/-!
# The injection screen

The screen looks at texts and field names before they come near a query. It denies, and does not
understand: marks of comments and statement ends, quotes and parentheses that do not pair,
tautologies and the keywords of statements.

## Main definitions

* `Screen`: the keywords denied beside the usual ones
* `Screen.withKeywords`: the screen of a list of keywords as written
* `Screen.flagsText`, `Screen.flagsField`: what the screen denies

## Main results

* `Screen.flagsText_of_keyword`: a text with a denied keyword is flagged
* `Screen.flagsField_of_not_isFieldName`: what has not the form of a field name is flagged
-/

namespace ScreenedQuery

/-- The keywords that every screen denies. -/
def defaultKeywords : List String :=
  ["union", "select", "insert", "update", "delete", "drop", "alter", "create", "truncate", "exec",
    "execute", "attach", "detach", "pragma"]

/-- Character sequences that no text may hold: comments, statement ends, and characters that
quote or escape in some dialect. -/
def forbiddenSequences : List (List Char) :=
  [['-', '-'], ['/', '*'], ['*', '/'], [';'], ['#'], ['\x60'], ['\\'], ['\x00']]

/-- **An injection screen**, given by the keywords it denies beside the usual ones. -/
structure Screen where
  /-- The further keywords, none of them blank. -/
  extra : List (List Char) := []
  deriving DecidableEq

namespace Screen

/-- The screen that denies further keywords. Blanks around a keyword are left out, and so are
keywords that are nothing but blanks. Any number of keywords makes a screen; that a pattern made of
them may get too large for the library that matches it is left out. -/
def withKeywords (keywords : List String) : Screen :=
  ⟨(keywords.map fun keyword => Unicode.trim keyword.toList).filter fun keyword =>
    !keyword.isEmpty⟩

/-- All keywords that the screen denies. -/
def keywords (screen : Screen) : List (List Char) :=
  defaultKeywords.map String.toList ++ screen.extra

/-- Whether a text holds a denied keyword as a whole word. -/
def hasKeyword (screen : Screen) (text : List Char) : Bool :=
  screen.keywords.any (occursAsWord · text)

/-- Whether a text holds both kinds of quotes an even number of times. -/
def quotesPair (text : List Char) : Bool :=
  text.count '\'' % 2 == 0 && text.count '"' % 2 == 0

/-- **What the screen denies as a text.** -/
def flagsText (screen : Screen) (text : String) : Bool :=
  let text := text.toList
  forbiddenSequences.any (occursIn · text) || !quotesPair text || !nests text ||
    screen.hasKeyword text || hasTautology text

/-- **What the screen denies as a field name.** -/
def flagsField (screen : Screen) (field : String) : Bool :=
  !isFieldName field.toList || screen.hasKeyword field.toList

/-- A text with a denied keyword is flagged. -/
theorem flagsText_of_keyword {screen : Screen} {keyword : List Char} {text : String}
    (hmem : keyword ∈ screen.keywords) (h : occursAsWord keyword text.toList) :
    screen.flagsText text := by
  have : screen.hasKeyword text.toList := List.any_eq_true.mpr ⟨keyword, hmem, h⟩
  simp [flagsText, this]

/-- What has not the form of a field name is flagged. -/
theorem flagsField_of_not_isFieldName {field : String} (screen : Screen)
    (h : isFieldName field.toList = false) : screen.flagsField field := by
  simp [flagsField, h]

end Screen

end ScreenedQuery
