import ScreenedQuery.Unicode.CaseFold
import ScreenedQuery.Unicode.Word

/-!
# Keywords

A keyword occurs in a text when it stands there in any case with a word boundary at its start and
one at its end.

## Main definitions

* `readFolded`: the rest of a text behind a word in any case
* `startsWithWord`: whether a text starts with a keyword
* `occursAsWord`: whether a keyword occurs in a text
-/

namespace ScreenedQuery.Screen

open Unicode (isBoundary sameFold)

/-- The rest of a text behind a word in any case at its start, and the last character before the
rest; `before` is the character in front of the text. -/
def readFolded (before : Option Char) : List Char → List Char → Option (Option Char × List Char)
  | [], text => some (before, text)
  | _ :: _, [] => none
  | c :: word, d :: text => if sameFold c d then readFolded (some d) word text else none

/-- Whether a text behind the character `before` starts with a keyword. -/
def startsWithWord (keyword : List Char) (before : Option Char) (text : List Char) : Bool :=
  isBoundary before text.head? &&
    match readFolded before keyword text with
    | some (last, rest) => isBoundary last rest.head?
    | none => false

/-- Whether a keyword occurs in a text behind the character `before`. -/
def occursAsWordFrom (keyword : List Char) (before : Option Char) : List Char → Bool
  | [] => startsWithWord keyword before []
  | c :: text =>
    startsWithWord keyword before (c :: text) || occursAsWordFrom keyword (some c) text

/-- **Whether a keyword occurs in a text** as a whole word. -/
def occursAsWord (keyword text : List Char) : Bool := occursAsWordFrom keyword none text

end ScreenedQuery.Screen
