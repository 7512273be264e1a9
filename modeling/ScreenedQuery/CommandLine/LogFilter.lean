import ScreenedQuery.Text
import ScreenedQuery.Unicode.Word

/-!
# Log filters

A log filter is a list of directives with commas between them: a level, or a target, a span or
both with an optional level.

## Main definitions

* `LogFilter.isLevel`: the levels
* `LogFilter.isDirective`: the directives
* `LogFilter.isValid`: whether a text is a log filter
-/

namespace ScreenedQuery.LogFilter

/-- The names of the levels. -/
def levels : List String :=
  ["trace", "debug", "info", "warn", "error", "off", "0", "1", "2", "3", "4", "5"]

/-- Whether a text names a level, in any case of its letters. -/
def isLevel (text : List Char) : Bool :=
  levels.contains (String.ofList (text.map Char.toLower))

/-- The characters of a target. -/
def isTargetChar (c : Char) : Bool := Unicode.isWordChar c || c == ':' || c == '-'

/-- The rest of a text behind a target or a span at its start. -/
def afterPlace? (text : List Char) : Option (List Char) :=
  match text with
  | '[' :: rest =>
    match rest.dropWhile (· != ']') with
    | ']' :: rest => some rest
    | _ => none
  | c :: rest => if isTargetChar c then some (rest.dropWhile isTargetChar) else none
  | [] => none

/-- Whether a text is empty, or an equals sign with an optional level. -/
def isLevelPart : List Char → Bool
  | [] => true
  | '=' :: level => level.isEmpty || isLevel level
  | _ => false

/-- Whether a text is a directive. -/
def isDirective (text : List Char) : Bool :=
  isLevel text ||
    match afterPlace? text with
    | none => false
    | some rest => isLevelPart rest || ((afterPlace? rest).map isLevelPart).getD false

/-- **Whether a text is a log filter.** Empty directives are left out. -/
def isValid (text : String) : Bool :=
  (splitParts ',' text.toList).all fun part => part.isEmpty || isDirective part

end ScreenedQuery.LogFilter
