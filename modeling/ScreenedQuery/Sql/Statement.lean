import ScreenedQuery.Plan.Basic
import ScreenedQuery.Sql.Token

/-!
# Statements

The part of SQL that is carried out: the selection of whole rows of one table, with a condition,
an order and a limit. In conditions `OR` binds weakest, then `AND`, `NOT`, equality and order.

## Main definitions

* `Sql.Expr`, `Sql.Select`: expressions and statements
* `Sql.readExpr`: an expression at the start of a row of tokens
* `Sql.Select.ofTokens?`, `Sql.Select.ofText?`: the statement of tokens and of a text

## Implementation notes

`readExpr` is bounded by a count of steps. Between two tokens it goes at most once through the
levels of binding.
-/

namespace ScreenedQuery.Sql

/-- The relations between two values. -/
inductive Relation
  /-- A comparison, unknown on null. -/
  | compare (comparison : Comparison)
  /-- Sameness, in which null is the same as null. -/
  | same
  /-- Difference, in which null is the same as null. -/
  | different
  deriving DecidableEq

/-- **The expressions of a statement.** -/
inductive Expr
  | null
  | number (negative : Bool) (text : List Char)
  | text (text : List Char)
  /-- A parameter, counted from one. -/
  | parameter (number : Nat)
  /-- A bare or quoted column, with the names before its dots in front. -/
  | column (quoted : Bool) (qualifiers : List (List Char)) (name : List Char)
  | relation (relation : Relation) (left right : Expr)
  | not (condition : Expr)
  | and (left right : Expr)
  | or (left right : Expr)

/-- An expression that rows are ordered by. -/
structure OrderTerm where
  expr : Expr
  /-- Whether greater values come first. -/
  descending : Bool

/-- **The selection of whole rows of a table.** -/
structure Select where
  /-- The name of the table with the names before its dots in front. -/
  table : List (List Char)
  /-- Another name that the statement gives the table. -/
  otherName : Option (List Char)
  condition : Option Expr
  order : List OrderTerm
  limit : Option Expr
  offset : Option Expr

/-! ## Words -/

/-- Letters of the ASCII alphabet in lower case, everything else as it is. -/
def lower (text : List Char) : List Char := text.map Char.toLower

/-- The words that cannot be names. -/
def reservedWords : List String :=
  ["add", "all", "alter", "and", "as", "autoincrement", "between", "case", "check", "collate",
    "commit", "constraint", "create", "cross", "default", "deferrable", "delete", "distinct",
    "drop", "else", "escape", "except", "exists", "foreign", "from", "full", "group", "having",
    "in", "index", "indexed", "inner", "insert", "intersect", "into", "is", "isnull", "join",
    "left", "limit", "natural", "not", "nothing", "notnull", "null", "on", "or", "order", "outer",
    "primary", "references", "returning", "right", "select", "set", "table", "then", "to",
    "transaction", "union", "unique", "update", "using", "values", "when", "where"]

/-- Whether a bare word cannot be a name. -/
def isReserved (word : List Char) : Bool := reservedWords.contains (String.ofList (lower word))

/-- The rest of a row of tokens behind a keyword. -/
def afterKeyword? (keyword : String) : List Token → Option (List Token)
  | .word word :: tokens => if String.ofList (lower word) = keyword then some tokens else none
  | _ => none

/-- The rest of a row of tokens behind a sign. -/
def afterSign? (sign : List Char) : List Token → Option (List Token)
  | .sign other :: tokens => if other = sign then some tokens else none
  | _ => none

/-- A name, and whether it is quoted. -/
def Token.name? : Token → Option (Bool × List Char)
  | .word bare => if isReserved bare then none else some (false, bare)
  | .name quoted => some (true, quoted)
  | _ => none

/-- The names of a dotted path, each with its quoting, and the rest of the tokens. -/
def readPath : List Token → Option (List (Bool × List Char) × List Token)
  | [] => none
  | token :: .sign ['.'] :: tokens => do
    let name ← token.name?
    let (path, rest) ← readPath tokens
    return (name :: path, rest)
  | token :: tokens => token.name?.map fun name => ([name], tokens)

/-! ## Expressions -/

/-- The levels of binding, the weakest first. -/
inductive Level
  | or
  | and
  | not
  /-- Equality and sameness. -/
  | equality
  /-- The order of values. -/
  | order
  /-- What stands by itself. -/
  | operand
  deriving DecidableEq

/-- The level that binds more strongly. -/
def Level.next : Level → Level
  | or => and
  | and => not
  | not => equality
  | equality => order
  | order => operand
  | operand => operand

/-- The comparison that a sign stands for, with its level. -/
def comparisonOfSign? (sign : List Char) : Option (Level × Comparison) :=
  match sign with
  | ['='] | ['=', '='] => some (.equality, .eq)
  | ['<', '>'] | ['!', '='] => some (.equality, .ne)
  | ['<'] => some (.order, .lt)
  | ['<', '='] => some (.order, .le)
  | ['>'] => some (.order, .gt)
  | ['>', '='] => some (.order, .ge)
  | _ => none

/-- The operator of a level at the start of a row of tokens, and the rest. -/
def readOperator (level : Level) (tokens : List Token) :
    Option ((Expr → Expr → Expr) × List Token) :=
  match level with
  | .or => (afterKeyword? "or" tokens).map (Expr.or, ·)
  | .and => (afterKeyword? "and" tokens).map (Expr.and, ·)
  | .equality | .order =>
    match tokens with
    | .sign sign :: rest =>
      match comparisonOfSign? sign with
      | some (found, comparison) =>
        if found = level then some (.relation (.compare comparison), rest) else none
      | none => none
    | _ =>
      if level = .equality then
        match afterKeyword? "is" tokens with
        | none => none
        | some rest =>
          match afterKeyword? "not" rest with
          | some rest => some (.relation .different, rest)
          | none => some (.relation .same, rest)
      else none
  | .not | .operand => none

/-- What stands by itself and is no condition, at the start of a row of tokens. -/
def readAtom (tokens : List Token) : Option (Expr × List Token) :=
  match tokens with
  | .number text :: rest => some (.number false text, rest)
  | .sign ['+'] :: .number text :: rest => some (.number false text, rest)
  | .sign ['-'] :: .number text :: rest => some (.number true text, rest)
  | .text text :: rest => some (.text text, rest)
  | .marker (some number) :: rest => some (.parameter number, rest)
  | _ =>
    match afterKeyword? "null" tokens with
    | some rest => some (.null, rest)
    | none =>
      match readPath tokens with
      | some (path, rest) =>
        path.getLast?.map fun (quoted, name) =>
          (.column quoted (path.dropLast.map (·.2)) name, rest)
      | none => none

mutual

/-- **An expression of a level** at the start of a row of tokens, and the rest. -/
def readExpr (steps : Nat) (level : Level) (tokens : List Token) : Option (Expr × List Token) :=
  match steps with
  | 0 => none
  | steps + 1 =>
    match level with
    | .operand =>
      match afterSign? ['('] tokens with
      | some inner => do
        let (expr, rest) ← readExpr steps .or inner
        let rest ← afterSign? [')'] rest
        return (expr, rest)
      | none =>
        match afterKeyword? "not" tokens with
        | some rest => (readExpr steps .equality rest).map fun (expr, rest) => (.not expr, rest)
        | none => readAtom tokens
    | .not =>
      match afterKeyword? "not" tokens with
      | some rest => (readExpr steps .not rest).map fun (expr, rest) => (.not expr, rest)
      | none => readExpr steps .equality tokens
    | level => do
      let (left, rest) ← readExpr steps level.next tokens
      readOperands steps level left rest

/-- The operators of a level with their right sides, joined from the left to what stands before
them. -/
def readOperands (steps : Nat) (level : Level) (left : Expr) (tokens : List Token) :
    Option (Expr × List Token) :=
  match steps with
  | 0 => none
  | steps + 1 =>
    match readOperator level tokens with
    | none => some (left, tokens)
    | some (combine, rest) => do
      let (right, rest) ← readExpr steps level.next rest
      readOperands steps level (combine left right) rest

end

/-- An expression at the start of a row of tokens, and the rest. -/
def readWhole (tokens : List Token) : Option (Expr × List Token) :=
  readExpr (8 * (tokens.length + 1)) .or tokens

/-! ## Statements -/

/-- The direction of an order at the start of a row of tokens. -/
def readDirection (tokens : List Token) : Bool × List Token :=
  match afterKeyword? "desc" tokens with
  | some rest => (true, rest)
  | none => (false, (afterKeyword? "asc" tokens).getD tokens)

/-- The terms of an order, at most as many as the tokens that are left. -/
def readOrderTerms : Nat → List Token → Option (List OrderTerm × List Token)
  | 0, _ => none
  | steps + 1, tokens => do
    let (expr, rest) ← readWhole tokens
    let (descending, rest) := readDirection rest
    match afterSign? [','] rest with
    | some rest =>
      let (terms, rest) ← readOrderTerms steps rest
      return (⟨expr, descending⟩ :: terms, rest)
    | none => return ([⟨expr, descending⟩], rest)

/-- Another name for the table, with or without its keyword. -/
def readAlias (tokens : List Token) : Option (Option (List Char) × List Token) :=
  match afterKeyword? "as" tokens with
  | some (token :: rest) => token.name?.map fun name => (some name.2, rest)
  | some [] => none
  | none =>
    match tokens with
    | token :: rest =>
      match token.name? with
      | some name => some (some name.2, rest)
      | none => some (none, tokens)
    | [] => some (none, [])

/-- The condition behind its keyword, if there is one. -/
def readCondition (tokens : List Token) : Option (Option Expr × List Token) :=
  match afterKeyword? "where" tokens with
  | some rest => (readWhole rest).map fun (expr, rest) => (some expr, rest)
  | none => some (none, tokens)

/-- The order behind its keywords, if there is one. -/
def readOrder (tokens : List Token) : Option (List OrderTerm × List Token) :=
  match afterKeyword? "order" tokens with
  | some rest => do
    let rest ← afterKeyword? "by" rest
    readOrderTerms (rest.length + 1) rest
  | none => some ([], tokens)

/-- The limit and the offset behind their keywords, if they are there. -/
def readLimit (tokens : List Token) : Option ((Option Expr × Option Expr) × List Token) :=
  match afterKeyword? "limit" tokens with
  | none => some ((none, none), tokens)
  | some rest => do
    let (first, rest) ← readWhole rest
    match afterKeyword? "offset" rest, afterSign? [','] rest with
    | some rest, _ =>
      let (offset, rest) ← readWhole rest
      return ((some first, some offset), rest)
    | none, some rest =>
      let (limit, rest) ← readWhole rest
      return ((some limit, some first), rest)
    | none, none => return ((some first, none), rest)

/-- **The statement of a row of tokens.** -/
def Select.ofTokens? (tokens : List Token) : Option Select := do
  let rest ← afterKeyword? "select" tokens
  let rest ← afterSign? ['*'] rest
  let rest ← afterKeyword? "from" rest
  let (path, rest) ← readPath rest
  let (otherName, rest) ← readAlias rest
  let (condition, rest) ← readCondition rest
  let (order, rest) ← readOrder rest
  let ((limit, offset), rest) ← readLimit rest
  if rest.isEmpty then some ⟨path.map (·.2), otherName, condition, order, limit, offset⟩ else none

/-- **The statement of a text**, and the largest number of a parameter in it. -/
def Select.ofText? (text : List Char) : Option (Select × Nat) := do
  let (tokens, largest) ← numberMarkers 0 (← tokens text)
  let select ← Select.ofTokens? tokens
  return (select, largest)

end ScreenedQuery.Sql
