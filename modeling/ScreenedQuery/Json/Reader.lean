import ScreenedQuery.Json.Number
import ScreenedQuery.Text

/-!
# Reading JSON

The grammar of JSON texts, with blanks between the parts and nothing but blanks behind the value.

## Main definitions

* `Json.readString`: the rest of a string, behind its opening quote
* `Json.readValue`: a value at the start of a text
* `Json.parse`: the value of a text
* `Json.parseReadable`: the value of a text all of which has a meaning

## Implementation notes

`readValue` is bounded by a count of steps that every text stays below, and by the number of
arrays and objects that may still be opened around a part.
-/

namespace ScreenedQuery.Json

/-! ## Strings -/

/-- A piece of a string: a character, or a UTF-16 unit that was escaped by its number. -/
inductive Piece
  /-- A character that stands for itself or behind a backslash. -/
  | char (c : Char)
  /-- A UTF-16 unit. -/
  | unit (n : Nat)

/-- The value of a hexadecimal digit. -/
def hexValue? (c : Char) : Option Nat :=
  if c.isDigit then some (c.toNat - 48)
  else if 'a' ≤ c ∧ c ≤ 'f' then some (c.toNat - 87)
  else if 'A' ≤ c ∧ c ≤ 'F' then some (c.toNat - 55)
  else none

/-- The UTF-16 unit of four hexadecimal digits. -/
def hexUnit? (a b c d : Char) : Option Nat := do
  let a ← hexValue? a
  let b ← hexValue? b
  let c ← hexValue? c
  let d ← hexValue? d
  return ((a * 16 + b) * 16 + c) * 16 + d

/-- The character that a letter behind a backslash stands for. -/
def escaped? : Char → Option Char
  | '"' => some '"'
  | '\\' => some '\\'
  | '/' => some '/'
  | 'b' => some '\x08'
  | 'f' => some '\x0c'
  | 'n' => some '\n'
  | 'r' => some '\r'
  | 't' => some '\t'
  | _ => none

/-- The pieces of a string up to its closing quote, and the rest of the text. -/
def readPieces : List Char → Option (List Piece × List Char)
  | [] => none
  | '"' :: text => some ([], text)
  | '\\' :: 'u' :: a :: b :: c :: d :: text => do
    let unit ← hexUnit? a b c d
    let (pieces, rest) ← readPieces text
    return (.unit unit :: pieces, rest)
  | '\\' :: letter :: text => do
    let c ← escaped? letter
    let (pieces, rest) ← readPieces text
    return (.char c :: pieces, rest)
  | c :: text => do
    if c.toNat < 0x20 ∨ c = '\\' then none
    let (pieces, rest) ← readPieces text
    return (.char c :: pieces, rest)

/-- The first half of a surrogate pair. -/
def isHighSurrogate (n : Nat) : Bool := 0xD800 ≤ n && n < 0xDC00

/-- The second half of a surrogate pair. -/
def isLowSurrogate (n : Nat) : Bool := 0xDC00 ≤ n && n < 0xE000

/-- The characters that the pieces spell; none if half a surrogate pair stands alone. -/
def joinPieces : List Piece → Option (List Char)
  | [] => some []
  | .char c :: pieces => (joinPieces pieces).map (c :: ·)
  | .unit high :: .unit low :: pieces =>
    if isHighSurrogate high then
      if isLowSurrogate low then
        let c := Char.ofNat (0x10000 + (high - 0xD800) * 0x400 + (low - 0xDC00))
        (joinPieces pieces).map (c :: ·)
      else none
    else if isLowSurrogate high then none
    else (joinPieces (.unit low :: pieces)).map (Char.ofNat high :: ·)
  | .unit n :: pieces =>
    if isHighSurrogate n || isLowSurrogate n then none
    else (joinPieces pieces).map (Char.ofNat n :: ·)

/-- **The rest of a string** behind its opening quote: its text, unless it has no meaning, and
what follows it. -/
def readString (text : List Char) : Option (Option String × List Char) :=
  (readPieces text).map fun (pieces, rest) => ((joinPieces pieces).map String.ofList, rest)

/-! ## Values -/

/-- The blanks of JSON. -/
def isSpace (c : Char) : Bool := c == ' ' || c == '\t' || c == '\n' || c == '\r'

/-- A text without the blanks at its start. -/
def skipSpace (text : List Char) : List Char := text.dropWhile isSpace

/-- The array of the items, or nothing readable if no array may be opened here. -/
def ofItems (room : Nat) (items : List Json) : Json :=
  if room = 0 then unreadable else array items

/-- The object of the members, or nothing readable if no object may be opened here or a name has
no meaning. -/
def ofMembers (room : Nat) (members : List (Option String × Json)) : Json :=
  if room = 0 then unreadable
  else match members.mapM fun (name, value) => name.map (·, value) with
    | some members => object members
    | none => unreadable

mutual

/-- **A value at the start of a text**, and the rest. At most `room` arrays and objects may be
nested in each other. -/
def readValue (steps room : Nat) (text : List Char) : Option (Json × List Char) :=
  match steps with
  | 0 => none
  | steps + 1 =>
    match skipSpace text with
    | 'n' :: text => (afterStart? ['u', 'l', 'l'] text).map (null, ·)
    | 't' :: text => (afterStart? ['r', 'u', 'e'] text).map (bool true, ·)
    | 'f' :: text => (afterStart? ['a', 'l', 's', 'e'] text).map (bool false, ·)
    | '"' :: text => (readString text).map fun (s, rest) => ((s.map string).getD unreadable, rest)
    | '[' :: text =>
      match skipSpace text with
      | ']' :: rest => some (ofItems room [], rest)
      | text =>
        (readItems steps (room - 1) text).map fun (items, rest) => (ofItems room items, rest)
    | '\x7b' :: text =>
      match skipSpace text with
      | '\x7d' :: rest => some (ofMembers room [], rest)
      | text =>
        (readMembers steps (room - 1) text).map fun (members, rest) =>
          (ofMembers room members, rest)
    | text => readNumber text

/-- The items of an array that is not empty, up to its closing bracket. -/
def readItems (steps room : Nat) (text : List Char) : Option (List Json × List Char) :=
  match steps with
  | 0 => none
  | steps + 1 => do
    let (item, text) ← readValue steps room text
    match skipSpace text with
    | ']' :: rest => some ([item], rest)
    | ',' :: text =>
      let (items, rest) ← readItems steps room text
      some (item :: items, rest)
    | _ => none

/-- The members of an object that is not empty, up to its closing brace. -/
def readMembers (steps room : Nat) (text : List Char) :
    Option (List (Option String × Json) × List Char) :=
  match steps with
  | 0 => none
  | steps + 1 =>
    match skipSpace text with
    | '"' :: text => do
      let (name, text) ← readString text
      match skipSpace text with
      | ':' :: text =>
        let (value, text) ← readValue steps room text
        match skipSpace text with
        | '\x7d' :: rest => some ([(name, value)], rest)
        | ',' :: text =>
          let (members, rest) ← readMembers steps room text
          some ((name, value) :: members, rest)
        | _ => none
      | _ => none
    | _ => none

end

/-- How many arrays and objects may be nested in each other. -/
def nestingLimit : Nat := 127

/-- **The value of a text**, if the text is well formed. -/
def parse (text : String) : Option Json :=
  let text := text.toList
  match readValue (2 * text.length + 2) nestingLimit text with
  | some (json, rest) => if (skipSpace rest).isEmpty then some json else none
  | none => none

/-- The value of a text every part of which has a meaning. -/
def parseReadable (text : String) : Option Json :=
  (parse text).filter isReadable

end ScreenedQuery.Json
