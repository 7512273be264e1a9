import ScreenedQuery.Sql.Draft
import ScreenedQuery.Sql.Statement
import ScreenedQuery.Sql.Storage

/-!
# The evaluation of statements

A statement is carried out on tables whose columns have no types. Names are the same up to the
case of ASCII letters. A name between double quotes that is no column stands for itself as a text.

## Main definitions

* `Sql.Table`, `Sql.Database`: rows under the names of their columns, and tables
* `Sql.Expr.meaning?`: the value of an expression on a row, if its names can be resolved
* `Sql.Select.run`: the rows of a statement
* `Sql.backend`: a database as a backend

## Main results

* `Sql.Relation.apply_null_left`: comparisons with null are unknown
-/

namespace ScreenedQuery.Sql

/-- **A table.** Its rows are in the order in which they were inserted. -/
structure Table where
  name : String
  columns : List String
  rows : List (List Value)

abbrev Database := List Table

/-- Whether two names are the same up to the case of ASCII letters. -/
def sameName (a b : List Char) : Bool := lower a == lower b

/-- The name of the database that holds the tables. -/
def schemaName : List Char := ['m', 'a', 'i', 'n']

/-- The table of a dotted name. -/
def Database.table? (database : Database) (path : List (List Char)) : Option Table :=
  match path with
  | [name] => database.find? fun table => sameName table.name.toList name
  | [schema, name] =>
    if sameName schema schemaName then
      database.find? fun table => sameName table.name.toList name
    else none
  | _ => none

/-- A row as a record. -/
def Table.record (table : Table) (row : List Value) : Record :=
  FieldMap.ofList (table.columns.zip row)

/-- A row with its number, counted from one in the order of insertion. -/
structure StoredRow where
  number : Nat
  /-- The values of the columns. -/
  cells : List Value

/-- The rows of a table as they are stored. -/
def Table.storedRows (table : Table) : List StoredRow :=
  table.rows.zipIdx.map fun (row, index) => ⟨index + 1, row.map stored⟩

/-! ## Expressions -/

/-- The meaning of an expression: its value on every row, and whether it is a row number, so that
texts that read as numbers are compared with it as numbers. -/
structure Meaning where
  /-- Whether the expression is the number of a row. -/
  isRowNumber : Bool
  value : StoredRow → Value

/-- What the names of an expression refer to. -/
structure Scope where
  table : Table
  /-- Another name for the table, in place of its own. -/
  otherName : Option (List Char)

/-- Whether the names before a column lead to the table of a scope. -/
def Scope.admits (scope : Scope) (qualifiers : List (List Char)) : Bool :=
  match qualifiers with
  | [] => true
  | [name] => sameName name (scope.otherName.getD scope.table.name.toList)
  | [schema, name] =>
    scope.otherName.isNone && sameName schema schemaName && sameName name scope.table.name.toList
  | _ => false

/-- The names of the row number. -/
def rowNumberNames : List String := ["rowid", "oid", "_rowid_"]

/-- The meaning of a value that does not depend on the row. -/
def Meaning.constant (value : Value) : Meaning := ⟨false, fun _ => value⟩

/-- **The meaning of a column**, if there is one of this name. -/
def Scope.column? (scope : Scope) (quoted : Bool) (qualifiers : List (List Char))
    (name : List Char) : Option Meaning :=
  if !scope.admits qualifiers then none
  else match scope.table.columns.findIdx? fun column => sameName column.toList name with
    | some index => some ⟨false, fun row => row.cells[index]?.getD .null⟩
    | none =>
      let word := String.ofList (lower name)
      if rowNumberNames.contains word then
        some ⟨true, fun row => .int (Int64.ofNat row.number)⟩
      else if !qualifiers.isEmpty then none
      else if quoted then some (.constant (.string (String.ofList name)))
      else match word with
        | "true" => some (.constant (.int 1))
        | "false" => some (.constant (.int 0))
        | _ => none

/-- The value of a number in a statement: whole if it has neither point nor exponent and fits. -/
def numberValue (negative : Bool) (text : List Char) : Value :=
  let text := if negative then '-' :: text else text
  match Number.integer? text, Number.decimal? text with
  | some n, _ => .int n
  | none, some x => .float x
  | none, none => .null

/-- The value of a relation between two values. -/
def Relation.apply : Relation → Value → Value → Value
  | same, a, b => ofTruth (some (order a b == .eq))
  | different, a, b => ofTruth (some (order a b != .eq))
  | compare comparison, a, b =>
    if a = .null ∨ b = .null then .null else ofTruth (some (comparison.allows (order a b)))

/-- Comparisons with null are unknown. -/
@[simp] theorem Relation.apply_null_left (comparison : Comparison) (value : Value) :
    (compare comparison).apply .null value = .null := by
  simp [Relation.apply]

/-- A relation between two meanings. -/
def Meaning.relate (relation : Relation) (a b : Meaning) : Meaning :=
  ⟨false, fun row =>
    let x := a.value row
    let y := b.value row
    relation.apply (if b.isRowNumber && !a.isRowNumber then toNumber x else x)
      (if a.isRowNumber && !b.isRowNumber then toNumber y else y)⟩

/-- A condition put together from two. -/
def Meaning.join (combine : Truth → Truth → Truth) (a b : Meaning) : Meaning :=
  ⟨false, fun row => ofTruth (combine (truth (a.value row)) (truth (b.value row)))⟩

/-- The truth value that a bare word stands for, where no column has this name. -/
def Scope.truthWord? (scope : Scope) : Expr → Option Bool
  | .column false [] name =>
    if scope.table.columns.any fun column => sameName column.toList name then none
    else match String.ofList (lower name) with
      | "true" => some true
      | "false" => some false
      | _ => none
  | _ => none

/-- Sameness with a truth value: whether a condition has this outcome. -/
def Meaning.hasTruth (relation : Relation) (expected : Bool) (a : Meaning) : Meaning :=
  ⟨false, fun row =>
    ofTruth (some ((truth (a.value row) == some expected) == (relation == .same)))⟩

/-- **The meaning of an expression**, if all its names can be resolved. -/
def Expr.meaning? (scope : Scope) (params : List Value) : Expr → Option Meaning
  | null => some (.constant .null)
  | number negative digits => some (.constant (numberValue negative digits))
  | text inner => some (.constant (.string (String.ofList inner)))
  | parameter index => some (.constant (stored (params[index - 1]?.getD .null)))
  | column quoted qualifiers name => scope.column? quoted qualifiers name
  | relation kind left right => do
    let a ← left.meaning? scope params
    match kind, scope.truthWord? right with
    | .same, some expected | .different, some expected => return a.hasTruth kind expected
    | _, _ => return .relate kind a (← right.meaning? scope params)
  | not condition => do
    let meaning ← condition.meaning? scope params
    return ⟨false, fun row => ofTruth ((truth (meaning.value row)).map (!·))⟩
  | and left right => do
    return .join .and (← left.meaning? scope params) (← right.meaning? scope params)
  | or left right => do
    return .join .or (← left.meaning? scope params) (← right.meaning? scope params)

/-! ## Statements -/

/-- The meaning of a term of an order. A whole number counts the columns. -/
def OrderTerm.meaning? (scope : Scope) (params : List Value) (term : OrderTerm) :
    Option Meaning :=
  match term.expr with
  | .number negative text =>
    match numberValue negative text with
    | .int n =>
      if 1 ≤ n.toInt ∧ n.toInt ≤ scope.table.columns.length then
        some ⟨false, fun row => row.cells[n.toInt.toNat - 1]?.getD .null⟩
      else none
    | value => some (.constant value)
  | expr => expr.meaning? scope params

/-- The order of two rows by the first term in which they differ. -/
def orderRows (terms : List (Meaning × Bool)) (a b : StoredRow) : Ordering :=
  match terms with
  | [] => .eq
  | (meaning, descending) :: terms =>
    let ordering := order (meaning.value a) (meaning.value b)
    (if descending then ordering.swap else ordering).then (orderRows terms a b)

/-- The whole number that a value stands for. -/
def wholeNumber? : Value → Option Int
  | .int n => some n.toInt
  | .float x =>
    let n := x.scaled / Binary64.unitsInOne
    if x.isFinite && x.scaled == n * Binary64.unitsInOne && (Number.int64? n).isSome then
      some (if x.isNegative then -n else n)
    else none
  | _ => none

/-- A count that does not depend on a row: a whole number. -/
def Expr.count? (params : List Value) (expr : Expr) : Option Int := do
  let meaning ← expr.meaning? ⟨⟨"", [], []⟩, none⟩ params
  wholeNumber? (toNumber (meaning.value ⟨0, []⟩))

/-- The rows that are left of a limit and an offset. A negative limit is no limit. -/
def cutRows (limit offset : Option Int) (rows : List Record) : List Record :=
  let rows := rows.drop (offset.getD 0).toNat
  match limit with
  | some limit => if limit < 0 then rows else rows.take limit.toNat
  | none => rows

/-- A count that may be absent. -/
def optionalCount? (params : List Value) : Option Expr → Option (Option Int)
  | none => some none
  | some expr => (expr.count? params).map some

/-- Whether a condition holds on a row; without a condition every row is kept. -/
def keeps (condition : Option Meaning) (row : StoredRow) : Bool :=
  match condition with
  | none => true
  | some meaning => truth (meaning.value row) == some true

/-- **The rows of a statement**, unless a name in it cannot be resolved. -/
def Select.run (select : Select) (database : Database) (params : List Value) :
    Option (List Record) := do
  let table ← database.table? select.table
  let scope : Scope := ⟨table, select.otherName⟩
  let condition ← match select.condition with
    | none => some none
    | some expr => (expr.meaning? scope params).map some
  let terms ← select.order.mapM fun term =>
    (term.meaning? scope params).map fun meaning => (meaning, term.descending)
  let limit ← optionalCount? params select.limit
  let offset ← optionalCount? params select.offset
  let rows := (table.storedRows.filter (keeps condition)).mergeSort fun a b =>
    orderRows terms a b != .gt
  return cutRows limit offset (rows.map fun row => table.record row.cells)

/-- The rows of a compiled query, which has as many parameters as its text asks for. Only the
statements of `Select` are carried out: a text with a function, with `LIKE`, `IN` or `BETWEEN`, or
with arithmetic is answered as if the store refused it, although a store may well have an answer. -/
def execute (database : Database) (query : CompiledQuery) :
    Except BackendError (List Record) :=
  let rows := do
    let (select, largest) ← Select.ofText? query.text.toList
    if largest = query.params.length then select.run database query.params else none
  match rows with
  | some rows => .ok rows
  | none => .error .store

/-- **A database as a backend.** -/
def backend (screen : Screen) (database : Database) : Backend where
  flagsText := screen.flagsText
  flagsField := screen.flagsField
  compile := compile screen
  execute := execute database

end ScreenedQuery.Sql
