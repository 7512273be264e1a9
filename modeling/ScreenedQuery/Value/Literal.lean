import ScreenedQuery.Number.Literal
import ScreenedQuery.Text
import ScreenedQuery.Unicode.Blank
import ScreenedQuery.Value.Basic

/-!
# Literals

How a bare literal in a filter text is read: quoted text, the words for null and the truth values
in any case, whole numbers, finite decimal numbers, and everything else as a text without quotes.

## Main definitions

* `quoted?`: the text between two equal quotes
* `Value.ofLiteral`: the value of a literal

## Main results

* `quoted?_quote`: a text between two equal quotes is read back
-/

namespace ScreenedQuery

/-- What stands between two equal quotes at the two ends of a text. -/
def quoted? : List Char → Option (List Char)
  | [] => none
  | quote :: text =>
    if isQuote quote && text.getLast? == some quote then some text.dropLast else none

/-- A text between two equal quotes is read back, whatever it holds. -/
theorem quoted?_quote {quote : Char} (h : isQuote quote) (text : List Char) :
    quoted? (quote :: (text ++ [quote])) = some text := by
  simp [quoted?, h]

namespace Value

/-- The values that are words: null and the truth values. -/
def ofWord? (word : List Char) : Option Value :=
  match String.ofList (word.map Char.toLower) with
  | "null" => some null
  | "true" => some (bool true)
  | "false" => some (bool false)
  | _ => none

/-- The value of a number that is finite. -/
def ofNumber? (text : List Char) : Option Value :=
  match Number.integer? text with
  | some n => some (int n)
  | none => ((Number.decimal? text).filter Binary64.isFinite).map float

/-- **The value of a literal**, blanks around it left out. -/
def ofLiteral (text : List Char) : Value :=
  let text := Unicode.trim text
  match quoted? text with
  | some inner => string (String.ofList inner)
  | none => ((ofWord? text).or (ofNumber? text)).getD (string (String.ofList text))

end Value

end ScreenedQuery
