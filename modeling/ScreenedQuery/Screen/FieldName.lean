import ScreenedQuery.Text

/-!
# Field names

A field name is a sequence of identifiers with dots between them. An identifier is made of ASCII
letters, digits and underscores and does not start with a digit.

## Main definitions

* `isIdentifier`: the form of an identifier
* `isFieldName`: the form of a field name
-/

namespace ScreenedQuery.Screen

/-- The characters an identifier can start with. -/
def isIdentifierStart (c : Char) : Bool := c.isAlpha || c == '_'

/-- The characters an identifier can go on with. -/
def isIdentifierRest (c : Char) : Bool := c.isAlphanum || c == '_'

/-- The form of an identifier. -/
def isIdentifier : List Char → Bool
  | [] => false
  | c :: text => isIdentifierStart c && text.all isIdentifierRest

/-- **The form of a field name.** -/
def isFieldName (text : List Char) : Bool := (splitParts '.' text).all isIdentifier

end ScreenedQuery.Screen
