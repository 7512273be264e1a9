import ScreenedQuery.Json.Reader

/-!
# Quoted texts in TOML

Texts stand between quotes on one line, or between threefold quotes over several lines. Between
double quotes a backslash starts an escape; between single ones every character stands for itself.

## Main definitions

* `Toml.readBasic`, `Toml.readLiteral`: texts on one line
* `Toml.readLongBasic`, `Toml.readLongLiteral`: texts over several lines
* `Toml.readQuoted`: any of them
-/

namespace ScreenedQuery.Toml

/-- The blanks inside a line. -/
def isSpace (c : Char) : Bool := c == ' ' || c == '\t'

/-- The characters that may stand in a line: all but the control characters, tabs apart. -/
def isLineChar (c : Char) : Bool := c == '\t' || (0x20 ≤ c.toNat && c.toNat != 0x7F)

/-- The rest of a text behind the end of a line. -/
def afterNewline? : List Char → Option (List Char)
  | '\n' :: text => some text
  | '\r' :: '\n' :: text => some text
  | _ => none

/-- The character of a number, unless the number is half a surrogate pair or too large. -/
def charOfNumber? (n : Nat) : Option Char :=
  if n.isValidChar then some (Char.ofNat n) else none

/-- The character of hexadecimal digits. -/
def hexChar? (digits : List Char) : Option Char := do
  let values ← digits.mapM Json.hexValue?
  charOfNumber? (values.foldl (fun n digit => 16 * n + digit) 0)

/-- The character that a letter behind a backslash stands for. -/
def escaped? : Char → Option Char
  | 'b' => some '\x08'
  | 't' => some '\t'
  | 'n' => some '\n'
  | 'f' => some '\x0c'
  | 'r' => some '\r'
  | '"' => some '"'
  | '\\' => some '\\'
  | _ => none

/-- A character in front of a text that is being read. -/
def pushChar (c : Char) (read : Option (List Char × List Char)) :
    Option (List Char × List Char) :=
  read.map fun (inner, rest) => (c :: inner, rest)

/-- The rest of a text between double quotes, and what follows it. -/
def readBasic : List Char → Option (List Char × List Char)
  | [] => none
  | '"' :: text => some ([], text)
  | '\\' :: 'u' :: a :: b :: c :: d :: text => do
    pushChar (← hexChar? [a, b, c, d]) (readBasic text)
  | '\\' :: 'U' :: a :: b :: c :: d :: e :: f :: g :: h :: text => do
    pushChar (← hexChar? [a, b, c, d, e, f, g, h]) (readBasic text)
  | '\\' :: letter :: text => do pushChar (← escaped? letter) (readBasic text)
  | c :: text => if isLineChar c && c != '\\' then pushChar c (readBasic text) else none

/-- The rest of a text between single quotes, and what follows it. -/
def readLiteral : List Char → Option (List Char × List Char)
  | [] => none
  | '\'' :: text => some ([], text)
  | c :: text => if isLineChar c then pushChar c (readLiteral text) else none

/-- Quotes in a long text: three of them close it, and one or two more in front of them belong to
the text. The answer is the quotes that belong to the text and the rest behind the closing ones,
if these are there. -/
def closing? (quote : Char) (text : List Char) : Option (List Char × List Char) :=
  let quotes := text.takeWhile (· == quote)
  if 3 ≤ quotes.length then
    let more := min 2 (quotes.length - 3)
    some (List.replicate more quote, text.drop (more + 3))
  else none

/-- Whether a text goes on behind blanks with the end of a line. -/
def endsLine (text : List Char) : Bool := (afterNewline? (text.dropWhile isSpace)).isSome

/-- A text without the blanks and the ends of lines at its start. -/
def skipLines : List Char → List Char
  | '\r' :: '\n' :: text => skipLines text
  | c :: text => if isSpace c || c == '\n' then skipLines text else c :: text
  | [] => []

/-- The rest of a text between threefold double quotes, read in a number of steps. -/
def readLongBasic : Nat → List Char → Option (List Char × List Char)
  | 0, _ => none
  | steps + 1, text =>
    match closing? '"' text with
    | some (quotes, rest) => some (quotes, rest)
    | none =>
      match text with
      | [] => none
      | '\r' :: '\n' :: text => pushChar '\n' (readLongBasic steps text)
      | '\n' :: text => pushChar '\n' (readLongBasic steps text)
      | '\\' :: text =>
        if endsLine text then readLongBasic steps (skipLines text)
        else match text with
          | 'u' :: a :: b :: c :: d :: text => do
            pushChar (← hexChar? [a, b, c, d]) (readLongBasic steps text)
          | 'U' :: a :: b :: c :: d :: e :: f :: g :: h :: text => do
            pushChar (← hexChar? [a, b, c, d, e, f, g, h]) (readLongBasic steps text)
          | letter :: text => do pushChar (← escaped? letter) (readLongBasic steps text)
          | [] => none
      | c :: text => if isLineChar c then pushChar c (readLongBasic steps text) else none

/-- The rest of a text between threefold single quotes, read in a number of steps. -/
def readLongLiteral : Nat → List Char → Option (List Char × List Char)
  | 0, _ => none
  | steps + 1, text =>
    match closing? '\'' text with
    | some (quotes, rest) => some (quotes, rest)
    | none =>
      match text with
      | [] => none
      | '\r' :: '\n' :: text => pushChar '\n' (readLongLiteral steps text)
      | c :: text =>
        if isLineChar c || c == '\n' then pushChar c (readLongLiteral steps text) else none

/-- A long text behind its opening quotes; the end of the first line is left out. -/
def readLong (read : Nat → List Char → Option (List Char × List Char)) (text : List Char) :
    Option (List Char × List Char) :=
  let text := (afterNewline? text).getD text
  read (text.length + 1) text

/-- **A quoted text**, and the rest. -/
def readQuoted : List Char → Option (List Char × List Char)
  | '"' :: '"' :: '"' :: text => readLong readLongBasic text
  | '"' :: text => readBasic text
  | '\'' :: '\'' :: '\'' :: text => readLong readLongLiteral text
  | '\'' :: text => readLiteral text
  | _ => none

end ScreenedQuery.Toml
