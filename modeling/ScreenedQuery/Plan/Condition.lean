import ScreenedQuery.Plan.Basic
import ScreenedQuery.Screen.FieldName
import ScreenedQuery.Unicode.Blank
import ScreenedQuery.Value.Literal

/-!
# Conditions as text

A raw filter of a plan is one comparison: a field, an operator and a literal, with blanks between
them as one likes. The literal goes to the end of the text and stays on one line.

## Main definitions

* `Comparison.tokens`: the operators as they are written
* `literalPart?`: the literal behind an operator
* `Predicate.ofText?`: the comparison that a text states

## Implementation notes

The operators are tried in an order that puts the longer ones first. An operator behind which no
literal is found gives way to a shorter one, so that `a <=` compares with the text `=`. A literal
that is nothing but blanks is the empty text.
-/

namespace ScreenedQuery

open Screen (isIdentifierStart isIdentifierRest)

/-- The operators as they are written, in the order in which they are tried. -/
def Comparison.tokens : List (List Char × Comparison) :=
  [(['<', '='], .le), (['>', '='], .ge), (['!', '='], .ne), (['<', '>'], .ne), (['='], .eq),
    (['<'], .lt), (['>'], .gt)]

/-- The literal behind an operator: what stands between the blanks, on one line, or else one
blank that does not end a line. -/
def literalPart? (text : List Char) : Option (List Char) :=
  match Unicode.trim text with
  | [] => ((text.filter (· != '\n')).getLast?).map fun blank => [blank]
  | literal => if literal.contains '\n' then none else some literal

/-- The characters that the name of a field goes on with. -/
def isFieldRest (c : Char) : Bool := isIdentifierRest c || c == '.'

/-- The field at the start of a text, and the rest. -/
def fieldPart? (text : List Char) : Option (List Char × List Char) :=
  match text with
  | [] => none
  | c :: rest =>
    if isIdentifierStart c then
      some (c :: rest.takeWhile isFieldRest, rest.dropWhile isFieldRest)
    else none

/-- The operator and the literal behind a field. -/
def comparisonPart? (text : List Char) : Option (Comparison × List Char) :=
  Comparison.tokens.findSome? fun (token, comparison) =>
    ((afterStart? token text).bind literalPart?).map (comparison, ·)

/-- **The comparison that a text states.** -/
def Predicate.ofText? (text : String) : Option Predicate := do
  let (field, rest) ← fieldPart? (Unicode.trimStart text.toList)
  let (comparison, literal) ← comparisonPart? (Unicode.trimStart rest)
  return .compare (String.ofList field) comparison (Value.ofLiteral literal)

end ScreenedQuery
