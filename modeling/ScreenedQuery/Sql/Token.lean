import ScreenedQuery.Number.Literal
import ScreenedQuery.Text

/-!
# The tokens of statements

## Main definitions

* `Sql.Token`: the tokens
* `Sql.readToken`: the token at the start of a text, and the rest
* `Sql.tokens`: the tokens of a text
* `Sql.numberMarkers`: the markers without a number given theirs

## Implementation notes

`tokensWithin` is bounded by a count of steps; every token takes at least one character, so that
the length of the text is enough.
-/

namespace ScreenedQuery.Sql

/-- **The tokens of a statement.** -/
inductive Token
  /-- A bare word: a keyword or a name. -/
  | word (text : List Char)
  /-- A name between double quotes. -/
  | name (text : List Char)
  /-- A text between single quotes. -/
  | text (text : List Char)
  | number (text : List Char)
  /-- The marker of a parameter; a number of its own is optional. -/
  | marker (number : Option Nat)
  | sign (text : List Char)
  deriving DecidableEq

/-- The blanks between tokens. -/
def isGap (c : Char) : Bool := c == ' ' || c == '\t' || c == '\n' || c == '\x0c' || c == '\r'

/-- The characters that a word starts with. -/
def isWordStart (c : Char) : Bool := c.isAlpha || c == '_' || 0x80 ≤ c.toNat

/-- The characters that a word goes on with. -/
def isWordRest (c : Char) : Bool := isWordStart c || c.isDigit || c == '$'

/-- The text up to a closing quote, and the rest; a quote that is written twice stands for
itself. -/
def readQuoted (quote : Char) : List Char → Option (List Char × List Char)
  | [] => none
  | [c] => if c = quote then some ([], []) else none
  | c :: d :: text =>
    if c = quote then
      if d = quote then (readQuoted quote text).map fun (inner, rest) => (quote :: inner, rest)
      else some ([], d :: text)
    else (readQuoted quote (d :: text)).map fun (inner, rest) => (c :: inner, rest)

/-- The digits of an exponent at the start of a text, with its letter and sign, and the rest. -/
def readExponent (text : List Char) : List Char × List Char :=
  match text with
  | e :: sign :: digit :: rest =>
    if (e == 'e' || e == 'E') && (sign == '-' || sign == '+') && digit.isDigit then
      (e :: sign :: digit :: rest.takeWhile Char.isDigit, rest.dropWhile Char.isDigit)
    else if (e == 'e' || e == 'E') && sign.isDigit then
      (e :: (sign :: digit :: rest).takeWhile Char.isDigit,
        (sign :: digit :: rest).dropWhile Char.isDigit)
    else ([], text)
  | [e, digit] =>
    if (e == 'e' || e == 'E') && digit.isDigit then ([e, digit], []) else ([], text)
  | _ => ([], text)

/-- A number at the start of a text, and the rest. A word must not follow it directly. -/
def readNumber (text : List Char) : Option (List Char × List Char) :=
  let (whole, rest) := Number.splitDigits text
  let (fraction, rest) := match rest with
    | '.' :: rest => ('.' :: (Number.splitDigits rest).1, (Number.splitDigits rest).2)
    | _ => ([], rest)
  let (exponent, rest) := readExponent rest
  if (rest.head?.map isWordRest).getD false then none
  else some (whole ++ fraction ++ exponent, rest)

/-- The signs, the longer ones first. -/
def signs : List (List Char) :=
  [['=', '='], ['<', '='], ['>', '='], ['<', '>'], ['!', '='], ['='], ['<'], ['>'], ['('], [')'],
    [','], ['.'], ['*'], ['-'], ['+']]

/-- **The token at the start of a text**, and the rest. -/
def readToken (text : List Char) : Option (Token × List Char) :=
  match text with
  | [] => none
  | '\'' :: rest => (readQuoted '\'' rest).map fun (inner, rest) => (.text inner, rest)
  | '"' :: rest => (readQuoted '"' rest).map fun (inner, rest) => (.name inner, rest)
  | '?' :: rest =>
    let (digits, rest) := Number.splitDigits rest
    some (.marker (if digits.isEmpty then none else some (Number.digitsValue digits)), rest)
  | c :: rest =>
    if isWordStart c then
      some (.word (c :: rest.takeWhile isWordRest), rest.dropWhile isWordRest)
    else if c.isDigit || (c == '.' && (rest.head?.map Char.isDigit).getD false) then
      (readNumber text).map fun (number, rest) => (.number number, rest)
    else signs.findSome? fun sign => (afterStart? sign text).map (.sign sign, ·)

/-- The tokens of a text, read in a number of steps. -/
def tokensWithin : Nat → List Char → Option (List Token)
  | 0, text => if (text.dropWhile isGap).isEmpty then some [] else none
  | steps + 1, text =>
    match text.dropWhile isGap with
    | [] => some []
    | text => do
      let (token, rest) ← readToken text
      let tokens ← tokensWithin steps rest
      return token :: tokens

/-- **The tokens of a text.** -/
def tokens (text : List Char) : Option (List Token) := tokensWithin text.length text

/-- The largest number that a marker may have. -/
def largestMarker : Nat := 32766

/-- The tokens with a number for every marker, and the largest of these numbers. A marker without
a number of its own gets the next one after the largest so far. -/
def numberMarkers (largest : Nat) : List Token → Option (List Token × Nat)
  | [] => some ([], largest)
  | .marker number :: tokens =>
    let number := number.getD (largest + 1)
    if number = 0 || largestMarker < number then none
    else (numberMarkers (max largest number) tokens).map fun (tokens, largest) =>
      (.marker (some number) :: tokens, largest)
  | token :: tokens =>
    (numberMarkers largest tokens).map fun (tokens, largest) => (token :: tokens, largest)

end ScreenedQuery.Sql
