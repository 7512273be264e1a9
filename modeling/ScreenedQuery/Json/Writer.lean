import ScreenedQuery.Json.Basic
import ScreenedQuery.Number.Layout

/-!
# Writing JSON

Two layouts of a JSON value: compact, without blanks, and pretty, with a line for every item and
member and two blanks of indentation for every level.

## Main definitions

* `Json.quote`: a string with its escapes
* `Json.compact`: the compact text of a value
* `Json.pretty`: the text over several lines
-/

namespace ScreenedQuery.Json

/-- A character in a string: quotes, backslashes and control characters are escaped. -/
def escape (c : Char) : List Char :=
  match c with
  | '"' => ['\\', '"']
  | '\\' => ['\\', '\\']
  | '\x08' => ['\\', 'b']
  | '\t' => ['\\', 't']
  | '\n' => ['\\', 'n']
  | '\x0c' => ['\\', 'f']
  | '\r' => ['\\', 'r']
  | c =>
    if c.toNat < 0x20 then
      ['\\', 'u', '0', '0', Nat.digitChar (c.toNat / 16), Nat.digitChar (c.toNat % 16)]
    else [c]

def quote (s : String) : List Char := '"' :: (s.toList.flatMap escape ++ ['"'])

/-- A whole number in decimal digits. -/
def wholeText (n : Int) : List Char :=
  if n < 0 then '-' :: Nat.toDigits 10 n.natAbs else Nat.toDigits 10 n.natAbs

mutual

/-- The compact text of a value, as a list of characters. -/
def compactChars : Json → List Char
  | null => ['n', 'u', 'l', 'l']
  | bool true => ['t', 'r', 'u', 'e']
  | bool false => ['f', 'a', 'l', 's', 'e']
  | integer n => wholeText n
  | real x => x.jsonText
  | string s => quote s
  | array items => '[' :: (compactItems items ++ [']'])
  | object members => '\x7b' :: (compactMembers members ++ ['\x7d'])
  | unreadable => ['n', 'u', 'l', 'l']

/-- The compact texts of items, with commas between them. -/
def compactItems : List Json → List Char
  | [] => []
  | [item] => compactChars item
  | item :: items => compactChars item ++ ',' :: compactItems items

/-- The compact texts of members, with commas between them. -/
def compactMembers : List (String × Json) → List Char
  | [] => []
  | [(name, value)] => quote name ++ ':' :: compactChars value
  | (name, value) :: members =>
    quote name ++ ':' :: (compactChars value ++ ',' :: compactMembers members)

end

/-- **The compact text of a value.** -/
def compact (json : Json) : String := String.ofList (compactChars json)

/-- The start of a line at a level of indentation. -/
def newLine (level : Nat) : List Char := '\n' :: List.replicate (2 * level) ' '

mutual

/-- The pretty text of a value at a level of indentation. -/
def prettyChars (level : Nat) : Json → List Char
  | array [] => ['[', ']']
  | array (item :: items) =>
    '[' :: (newLine (level + 1) ++ prettyChars (level + 1) item ++ prettyItems (level + 1) items ++
      newLine level ++ [']'])
  | object [] => ['\x7b', '\x7d']
  | object ((name, value) :: members) =>
    '\x7b' :: (newLine (level + 1) ++ quote name ++ [':', ' '] ++ prettyChars (level + 1) value ++
      prettyMembers (level + 1) members ++ newLine level ++ ['\x7d'])
  | json => compactChars json

/-- The pretty texts of the items behind the first one, each on a line of its own. -/
def prettyItems (level : Nat) : List Json → List Char
  | [] => []
  | item :: items => ',' :: (newLine level ++ prettyChars level item ++ prettyItems level items)

/-- The pretty texts of the members behind the first one, each on a line of its own. -/
def prettyMembers (level : Nat) : List (String × Json) → List Char
  | [] => []
  | (name, value) :: members =>
    ',' :: (newLine level ++ quote name ++ [':', ' '] ++ prettyChars level value ++
      prettyMembers level members)

end

/-- **The text of a value over several lines.** -/
def pretty (json : Json) : String := String.ofList (prettyChars 0 json)

end ScreenedQuery.Json
