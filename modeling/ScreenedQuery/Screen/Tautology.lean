import ScreenedQuery.Screen.Keyword
import ScreenedQuery.Unicode.Blank
import ScreenedQuery.Unicode.DecimalDigit

/-!
# Tautologies

A condition that is continued with `or` and something that is always true holds always. Two forms
are looked for: two literals with a sign of equality or inequality between them, and the word
`true`. A literal is a run of digits, or a run of word characters between two equal quotes.

## Main definitions

* `readLiteral`, `readRelation`: the rest of a text behind a literal, and behind a relation
* `startsWithTautology`: whether a text starts with such a continuation
* `hasTautology`: whether a text holds one
-/

namespace ScreenedQuery.Screen

open Unicode (isBoundary isBlank isDecimalDigit isWordChar trimStart)

/-- The rest of a text behind a literal at its start. -/
def readLiteral : List Char → Option (List Char)
  | [] => none
  | c :: text =>
    if c = '\'' ∨ c = '"' then
      match text.dropWhile isWordChar with
      | d :: rest => if d = c then some rest else none
      | [] => none
    else if isDecimalDigit c then some (text.dropWhile isDecimalDigit)
    else none

/-- The rest of a text behind a sign of equality or inequality with blanks around it. -/
def readRelation (text : List Char) : Option (List Char) :=
  match trimStart text with
  | '=' :: rest => some (trimStart rest)
  | '<' :: '>' :: rest => some (trimStart rest)
  | '!' :: '=' :: rest => some (trimStart rest)
  | _ => none

/-- Whether a text starts with two literals and a relation between them. -/
def startsWithComparison (text : List Char) : Bool :=
  (((readLiteral text).bind readRelation).bind readLiteral).isSome

/-- Whether a text starts with the word `true`; a word may go on before it, but not behind it. -/
def startsWithTrue (text : List Char) : Bool :=
  match readFolded none ['t', 'r', 'u', 'e'] text with
  | some (last, rest) => isBoundary last rest.head?
  | none => false

/-- Whether a text behind the character `before` starts with `or` and a tautology. -/
def startsWithTautology (before : Option Char) (text : List Char) : Bool :=
  isBoundary before text.head? &&
    match readFolded before ['o', 'r'] text with
    | some (_, c :: rest) =>
      isBlank c && (startsWithComparison (trimStart rest) || startsWithTrue (trimStart rest))
    | _ => false

/-- Whether a text behind the character `before` holds `or` and a tautology. -/
def hasTautologyFrom (before : Option Char) : List Char → Bool
  | [] => false
  | c :: text => startsWithTautology before (c :: text) || hasTautologyFrom (some c) text

/-- **Whether a text holds `or` and a tautology.** -/
def hasTautology (text : List Char) : Bool := hasTautologyFrom none text

end ScreenedQuery.Screen
