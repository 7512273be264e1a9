import ScreenedQuery.Toml.Quoted
import ScreenedQuery.Toml.Scalar

/-!
# Reading TOML

A document is read line by line: headers, dotted names with their values, comments and empty
lines.

## Main definitions

* `Toml.readKey`: a dotted name
* `Toml.readValue`: a value
* `Toml.Document`: the tables so far, and the one that lines are put into
* `Toml.parse`: the document of a text

## Implementation notes

`readValue` is bounded by a count of steps that every text stays below; besides, arrays and tables
in line can only be nested to a certain depth, and dotted names have a greatest length.
-/

namespace ScreenedQuery.Toml

/-- Dotted names have fewer parts, and arrays and tables in line are nested less deeply. -/
def depthLimit : Nat := 80

/-! ## Blanks and comments -/

/-- A text without the blanks at its start. -/
def skipSpace (text : List Char) : List Char := text.dropWhile isSpace

mutual

/-- A text without blanks, comments and ends of lines at its start. -/
def skipGap : List Char → List Char
  | [] => []
  | '\r' :: '\n' :: text => skipGap text
  | '#' :: text => skipNote text
  | c :: text => if isSpace c || c == '\n' then skipGap text else c :: text

/-- The same inside a comment. -/
def skipNote : List Char → List Char
  | [] => []
  | '\r' :: '\n' :: text => skipGap text
  | '\n' :: text => skipGap text
  | c :: text => if isLineChar c then skipNote text else c :: text

end

/-- The rest of a text behind the end of a line or at the end of the text. -/
def afterLine? : List Char → Option (List Char)
  | [] => some []
  | text => afterNewline? text

/-- The rest of a text behind blanks, a comment and the end of a line. -/
def afterTrailing? (text : List Char) : Option (List Char) :=
  match skipSpace text with
  | '#' :: text => afterLine? (text.dropWhile isLineChar)
  | text => afterLine? text

/-! ## Names -/

/-- The characters of a bare name. -/
def isBareChar (c : Char) : Bool := c.isAlphanum || c == '_' || c == '-'

/-- A part of a dotted name: bare, or a quoted text on one line. -/
def readName (text : List Char) : Option (String × List Char) :=
  match text with
  | '"' :: text => (readBasic text).map fun (inner, rest) => (String.ofList inner, rest)
  | '\'' :: text => (readLiteral text).map fun (inner, rest) => (String.ofList inner, rest)
  | text =>
    let bare := text.takeWhile isBareChar
    if bare.isEmpty then none else some (String.ofList bare, text.dropWhile isBareChar)

/-- The parts of a dotted name with blanks around them, at most a number of them. -/
def readParts : Nat → List Char → Option (List String × List Char)
  | 0, _ => none
  | room + 1, text => do
    let (name, text) ← readName (skipSpace text)
    match skipSpace text with
    | '.' :: text =>
      let (names, rest) ← readParts room text
      return (name :: names, rest)
    | rest => return ([name], rest)

/-- **A dotted name**, and the rest. -/
def readKey (text : List Char) : Option (List String × List Char) := readParts (depthLimit - 1) text

/-! ## Values -/

/-- The characters at which a number or a moment ends. -/
def endsScalar (c : Char) : Bool :=
  isSpace c || c == '\n' || c == '\r' || c == '#' || c == ',' || c == ']' || c == '\x7d'

/-- Whether a text goes on behind one blank with a time. -/
def continuesWithTime : List Char → Bool
  | ' ' :: a :: b :: ':' :: _ => a.isDigit && b.isDigit
  | _ => false

/-- A number or a moment, and the rest. A date and a time may have a blank between them. -/
def readScalar (text : List Char) : Option (Toml × List Char) :=
  let (scalar, rest) := text.span (!endsScalar ·)
  let (scalar, rest) :=
    if afterDate? scalar == some [] && continuesWithTime rest then
      let (time, rest) := (rest.drop 1).span (!endsScalar ·)
      (scalar ++ ' ' :: time, rest)
    else (scalar, rest)
  (ofScalar? scalar).map (·, rest)

/-- The values that are words, and the rest. -/
def readWord (text : List Char) : Option (Toml × List Char) :=
  match afterStart? ['t', 'r', 'u', 'e'] text with
  | some rest => some (.boolean true, rest)
  | none => (afterStart? ['f', 'a', 'l', 's', 'e'] text).map (.boolean false, ·)

mutual

/-- **A value**, and the rest. At most `room` arrays and tables in line may be nested. -/
def readValue (steps room : Nat) (text : List Char) : Option (Toml × List Char) :=
  match steps with
  | 0 => none
  | steps + 1 =>
    match text with
    | '[' :: text =>
      match room with
      | 0 => none
      | room + 1 => (readItems steps room text).map fun (items, rest) => (.array items, rest)
    | '\x7b' :: text =>
      match room with
      | 0 => none
      | room + 1 =>
        match skipSpace text with
        | '\x7d' :: rest => some (.table .inline [], rest)
        | text =>
          (readEntries steps room [] text).map fun (entries, rest) =>
            (.table .inline entries, rest)
    | '"' :: _ | '\'' :: _ =>
      (readQuoted text).map fun (inner, rest) => (.string (String.ofList inner), rest)
    | _ => (readWord text).or (readScalar text)

/-- The items of an array up to its closing bracket; a comma may follow the last one. -/
def readItems (steps room : Nat) (text : List Char) : Option (List Toml × List Char) :=
  match steps with
  | 0 => none
  | steps + 1 =>
    match skipGap text with
    | ']' :: rest => some ([], rest)
    | text => do
      let (item, text) ← readValue steps room text
      match skipGap text with
      | ']' :: rest => some ([item], rest)
      | ',' :: text =>
        let (items, rest) ← readItems steps room text
        some (item :: items, rest)
      | _ => none

/-- The entries of a table in line that is not empty, up to its closing brace, behind those that
were read before. -/
def readEntries (steps room : Nat) (entries : Entries) (text : List Char) :
    Option (Entries × List Char) :=
  match steps with
  | 0 => none
  | steps + 1 => do
    let (key, text) ← readKey text
    match text with
    | '=' :: text =>
      let (value, text) ← readValue steps room (skipSpace text)
      let entries ← entries.assign value key
      match skipSpace text with
      | '\x7d' :: rest => some (entries, rest)
      | ',' :: text => readEntries steps room entries text
      | _ => none
    | _ => none

end

/-! ## Documents -/

/-- The tables so far, and the header of the one that lines are put into. -/
structure Document where
  /-- The entries of the whole document. -/
  entries : Entries := []
  /-- The name in the last header. -/
  current : List String := []

namespace Document

/-- A line with a dotted name and a value. -/
def assign (document : Document) (key : List String) (value : Toml) : Option Document :=
  (document.entries.within (Entries.assign value key) document.current).map fun entries =>
    { document with entries }

/-- A header; a repeated one makes one table more. -/
def openHeader (document : Document) (repeated : Bool) (key : List String) : Option Document := do
  let name ← key.getLast?
  let change := if repeated then Entries.openItem name else Entries.openTable name
  let entries ← document.entries.within change key.dropLast
  return { entries, current := key }

end Document

/-- A line that is neither empty nor a comment, and the rest. -/
def readLine (document : Document) (text : List Char) : Option (Document × List Char) :=
  match text with
  | '[' :: '[' :: text => do
    let (key, text) ← readKey text
    match text with
    | ']' :: ']' :: text =>
      let document ← document.openHeader true key
      return (document, ← afterTrailing? text)
    | _ => none
  | '[' :: text => do
    let (key, text) ← readKey text
    match text with
    | ']' :: text =>
      let document ← document.openHeader false key
      return (document, ← afterTrailing? text)
    | _ => none
  | text => do
    let (key, text) ← readKey text
    match text with
    | '=' :: text =>
      let (value, rest) ← readValue (2 * text.length + 2) (depthLimit - 1) (skipSpace text)
      let document ← document.assign key value
      return (document, ← afterTrailing? rest)
    | _ => none

/-- The lines of a document, read in a number of steps. -/
def readLines : Nat → Document → List Char → Option Document
  | 0, _, _ => none
  | steps + 1, document, text =>
    match skipSpace text with
    | [] => some document
    | text =>
      match afterTrailing? text with
      | some rest => readLines steps document rest
      | none =>
        match readLine document text with
        | some (document, rest) => readLines steps document rest
        | none => none

/-- A text without the mark of its byte order. -/
def skipByteOrderMark : List Char → List Char
  | '\uFEFF' :: text => text
  | text => text

/-- **The document of a text.** -/
def parse (text : String) : Option Entries :=
  let text := skipByteOrderMark text.toList
  (readLines (text.length + 1) {} text).map Document.entries

end ScreenedQuery.Toml
