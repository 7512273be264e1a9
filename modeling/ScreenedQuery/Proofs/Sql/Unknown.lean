import ScreenedQuery.Proofs.Engine.Delivery
import ScreenedQuery.Proofs.Engine.Run
import ScreenedQuery.Proofs.Sql.Rows

/-!
# Fields that a table does not have

A statement quotes its names, and the store takes a quoted name that is no column as a text. So a
field that a table does not have is no error: it stands for its own name, and its test comes to the
same on every row. The test holds exactly if the field is asked to equal its own name.

## Main definitions

* `Sql.Table.IsUnknown`: a name that is neither a column nor the number of the row
* `Sql.Select.spelledOut`: a statement with a text in place of every unknown name

## Main results

* `Sql.Table.passes_of_isUnknown`: the test of an unknown field
* `Sql.execute_spelledOut`: an unknown name and the text of it are the same to a statement
* `Sql.run_execute_structured`: when an execution fails, and the rows that it delivers
-/

namespace ScreenedQuery.Sql

variable {table : Table} {params : List Value}

/-! ## Unknown names -/

/-- **A name that is neither a column**, up to the case of ASCII letters, **nor the number of the
row**. -/
def Table.IsUnknown (table : Table) (field : String) : Prop :=
  (∀ column ∈ table.columns, sameName column.toList field.toList = false) ∧
    String.ofList (lower field.toList) ∉ rowNumberNames

instance (table : Table) : DecidablePred table.IsUnknown :=
  fun _ => inferInstanceAs (Decidable (_ ∧ _))

/-- **A quoted name that is unknown stands for itself** as a text. -/
theorem column?_of_isUnknown {field : String} (h : table.IsUnknown field)
    (otherName : Option (List Char)) :
    Scope.column? ⟨table, otherName⟩ true [] field.toList = some (.constant (.string field)) := by
  have hcolumn : table.columns.findIdx? (fun column => sameName column.toList field.toList) =
      none := List.findIdx?_eq_none_iff.mpr h.1
  have hnumber : rowNumberNames.contains (String.ofList (lower field.toList)) = false := by
    simpa using h.2
  simp only [Scope.column?, Scope.admits, hcolumn, hnumber, Bool.not_true, Bool.false_eq_true,
    if_false, List.isEmpty_nil, if_true, String.ofList_toList]

/-- A value is stored as a text only if it is this text. -/
theorem stored_eq_string_iff {value : Value} {text : String} :
    stored value = .string text ↔ value = .string text := by
  cases value with
  | float x =>
    rw [stored]
    split <;> simp
  | _ => simp [stored]

/-- The store takes a value for equal to a text only if it is this text. -/
theorem order_string_eq_iff {value : Value} {text : String} :
    order (.string text) value = .eq ↔ value = .string text := by
  cases value with
  | string other => simp [order, eq_comm (a := other)]
  | _ => simp [order, storageClass]

/-- A text equals a value exactly if the value is this text; null is not. -/
theorem truth_compare_string {value : Value} {text : String} :
    truth ((Relation.compare .eq).apply (.string text) value) = some true ↔
      value = .string text := by
  by_cases hnull : value = .null
  · simp [hnull, Relation.apply, truth]
  · rw [← order_string_eq_iff]
    simp [hnull, Relation.apply, Comparison.allows]

/-- **The test of an unknown field** holds on all rows or on none: it holds exactly if the value is
the name of the field. -/
theorem Table.passes_of_isUnknown {binding : Binding} (h : table.IsUnknown binding.field)
    (row : StoredRow) : table.passes params row binding =
      decide (params[binding.placeholder.index]? = some (.string binding.field)) := by
  have hoperand : table.operand binding.field = .constant (.string binding.field) := by
    rw [Table.operand, column?_of_isUnknown h, Option.getD_some]
  rw [Table.passes, hoperand]
  generalize params[binding.placeholder.index]? = value
  change (truth ((if value = some .null then Relation.same else .compare .eq).apply
    (.string binding.field) (stored (value.getD .null))) == some true) = _
  rw [Bool.eq_iff_iff, beq_iff_eq, decide_eq_true_eq]
  split
  · -- A text is not null.
    rename_i hnull
    rw [hnull]
    refine ⟨fun htrue => ?_, fun hsame => ?_⟩
    · cases htrue
    · cases hsame
  · rw [truth_compare_string, stored_eq_string_iff]
    cases value <;> simp

/-! ## Statements with the names spelled out -/

/-- An expression with a text in place of every quoted name that is unknown. -/
def Expr.spelledOut (table : Table) : Expr → Expr
  | .column true [] name =>
    if table.IsUnknown (String.ofList name) then .text name else .column true [] name
  | .relation kind left right => .relation kind (left.spelledOut table) (right.spelledOut table)
  | .not condition => .not (condition.spelledOut table)
  | .and left right => .and (left.spelledOut table) (right.spelledOut table)
  | .or left right => .or (left.spelledOut table) (right.spelledOut table)
  | expr => expr

/-- **A statement with a text in place of every quoted name that is unknown**, in its condition and
in its order. -/
def Select.spelledOut (table : Table) (select : Select) : Select :=
  { select with
    condition := select.condition.map (Expr.spelledOut table)
    order := select.order.map fun term => { term with expr := term.expr.spelledOut table } }

section

variable {otherName : Option (List Char)}

/-- A word for a truth value is not quoted, so that it stays. -/
theorem truthWord?_spelledOut (expr : Expr) :
    Scope.truthWord? ⟨table, otherName⟩ (expr.spelledOut table) =
      Scope.truthWord? ⟨table, otherName⟩ expr := by
  cases expr with
  | column quoted qualifiers name =>
    cases quoted <;> cases qualifiers <;> try rfl
    rw [Expr.spelledOut]
    split <;> rfl
  | _ => rfl

/-- **An unknown name and its text have the same meaning.** -/
theorem Expr.meaning?_spelledOut (expr : Expr) :
    (expr.spelledOut table).meaning? ⟨table, otherName⟩ params =
      expr.meaning? ⟨table, otherName⟩ params := by
  induction expr with
  | column quoted qualifiers name =>
    cases quoted <;> cases qualifiers <;> try rfl
    rw [spelledOut]
    split
    · rename_i hunknown
      have hcolumn := column?_of_isUnknown hunknown otherName
      rw [String.toList_ofList] at hcolumn
      exact hcolumn.symm
    · rfl
  | relation kind left right ihleft ihright =>
    rw [spelledOut, meaning?, meaning?, ihleft, ihright, truthWord?_spelledOut]
  | not condition ih => rw [spelledOut, meaning?, meaning?, ih]
  | and left right ihleft ihright => rw [spelledOut, meaning?, meaning?, ihleft, ihright]
  | or left right ihleft ihright => rw [spelledOut, meaning?, meaning?, ihleft, ihright]
  | _ => rfl

theorem OrderTerm.meaning?_spelledOut (term : OrderTerm) :
    OrderTerm.meaning? ⟨table, otherName⟩ params
        { term with expr := term.expr.spelledOut table } =
      term.meaning? ⟨table, otherName⟩ params := by
  obtain ⟨expr, descending⟩ := term
  have hmeaning := @Expr.meaning?_spelledOut table params otherName expr
  cases expr with
  | column quoted qualifiers name =>
    cases quoted <;> cases qualifiers <;> try exact hmeaning
    -- A text is no number of a column either.
    dsimp only
    rw [Expr.spelledOut] at hmeaning ⊢
    by_cases hunknown : table.IsUnknown (String.ofList name)
    · rw [if_pos hunknown] at hmeaning ⊢
      exact hmeaning
    · rw [if_neg hunknown]
  | number negative text => rfl
  | _ => exact hmeaning

end

/-- **An unknown name and the text of it are the same to a statement.** -/
theorem Select.run_spelledOut (select : Select) {database : Database}
    (hfound : database.table? select.table = some table) (params : List Value) :
    (select.spelledOut table).run database params = select.run database params := by
  have horder : ((select.order.map fun term : OrderTerm =>
        { term with expr := term.expr.spelledOut table }).mapM fun term : OrderTerm =>
          (term.meaning? ⟨table, select.otherName⟩ params).map
            fun meaning => (meaning, term.descending)) =
      select.order.mapM fun term => (term.meaning? ⟨table, select.otherName⟩ params).map
        fun meaning => (meaning, term.descending) := by
    rw [List.mapM_map]
    simp only [Function.comp_def, OrderTerm.meaning?_spelledOut]
  cases hcondition : select.condition <;>
    simp only [run, spelledOut, hfound, hcondition, horder, Option.map_none, Option.map_some,
      Expr.meaning?_spelledOut, Option.bind_eq_bind, Option.bind_some]

/-- The rows of a compiled query, of which the statement is spelled out. -/
def executeSpelledOut (database : Database) (query : CompiledQuery) :
    Except BackendError (List Record) :=
  let rows := do
    let (select, largest) ← Select.ofText? query.text.toList
    let table ← database.table? select.table
    if largest = query.params.length then (select.spelledOut table).run database query.params
    else none
  match rows with
  | some rows => .ok rows
  | none => .error .store

/-- **Whatever else stands in a query**, its unknown names might as well be written as texts. -/
theorem execute_spelledOut (database : Database) (query : CompiledQuery) :
    execute database query = executeSpelledOut database query := by
  -- Without the table both fail, whatever the names are taken for.
  unfold execute executeSpelledOut
  cases hread : Select.ofText? query.text.toList with
  | none => rfl
  | some read =>
    obtain ⟨select, largest⟩ := read
    cases hfound : database.table? select.table with
    | none =>
      have hrun : select.run database query.params = none := by
        simp only [Select.run, hfound, Option.bind_eq_bind, Option.bind_none]
      simp [hrun, hfound]
    | some table =>
      have hrun := select.run_spelledOut hfound query.params
      by_cases hcount : largest = query.params.length
      · cases hrows : select.run database query.params <;> simp [hcount, hfound, hrun, hrows]
      · simp [hcount, hfound]

/-! ## Executions -/

/-- **What an engine delivers for structured filters** on fields without dots: the answer of its
table, if there is such a table. -/
theorem delivery_of_isStructured {engine : Engine} {screen : Screen} {database : Database}
    {tally : Tally} {target : Target} {query : CompiledQuery}
    (hbackend : engine.backend = some (backend screen database))
    (hcompile : (engine.compile tally).1 = .ok query)
    (houtput : engine.draft.output = some target) (hdot : '.' ∉ target.name.toList)
    (hstructured : engine.draft.IsStructured fun binding => '.' ∉ binding.field.toList)
    (hnumbered : engine.draft.bindings.map (·.placeholder.index) =
      List.range engine.draft.params.length)
    (hcount : engine.draft.params.length ≤ largestMarker) :
    engine.delivery =
      match database.table? [target.name.toList] with
      | none => .error (.backend .store)
      | some table => .ok (target, table.answer engine.draft) := by
  obtain ⟨hpoisoned, hstatement⟩ := engine_compile_eq_ok hbackend hcompile
  obtain ⟨other, hother, hname, hwritable, htext⟩ := statement_eq_ok hstatement
  obtain rfl : other = target := Option.some.inj (hother.symm.trans houtput)
  have hmisc : ∀ payload, .misc payload ∉ engine.draft.clauses :=
    fun payload hmem => hstructured _ hmem
  rw [payloads_eq_nil hmisc, List.flatMap_nil, List.append_nil] at htext
  have hquery : query =
      ⟨String.ofList (headText engine.draft other), engine.draft.params, query.transactional⟩ := by
    rw [← htext, String.ofList_toList, ← engine_compile_params hbackend hcompile]
  have hlimit : withinLimit (some largestMarker) engine.draft.params.length = true := by
    simpa [withinLimit] using hcount
  have hexecute : (backend screen database).execute query =
      executeWithin (some largestMarker) database query :=
    congrFun (executeWithin_largestMarker database).symm query
  rw [Engine.delivery_of_compile hbackend houtput hcompile, hexecute, hquery]
  cases hfound : database.table? [other.name.toList] with
  | none =>
    rw [executeWithin_of_missing hname hdot (hstructured.and hwritable) hnumbered hlimit hfound]
  | some table =>
    rw [executeWithin_of_isSimple hname hdot (hstructured.and hwritable) hnumbered hlimit hfound]

/-- **Queries of structured filters**, after any commands. Let the fields of the filters have no
dots, and let the query be compiled. Its execution fails exactly if the table of the target is
missing, and then nothing is delivered. If the table is there, then the rows are delivered on which
the filters come to true; the test of a field that the table does not have holds on every row or on
none, and it holds exactly if the field is asked to equal its own name.

Whatever else stands in a query, its unknown names might as well be written as texts. -/
theorem run_execute_structured {commands : List Bench.Command} {screen : Screen}
    {database : Database} {ledger : Ledger} {target : Target} {query : CompiledQuery} :
    let engine := (Bench.run {} commands).engine
    engine.backend = some (backend screen database) →
      (engine.compile ledger.tally).1 = .ok query → engine.draft.output = some target →
      execute database query = executeSpelledOut database query ∧
        ('.' ∉ target.name.toList →
          engine.draft.IsStructured (fun binding => '.' ∉ binding.field.toList) →
          engine.draft.params.length ≤ largestMarker →
          (database.table? [target.name.toList] = none →
            (engine.execute ledger).1 = .error (.backend .store) ∧
              (engine.execute ledger).2.buffers = ledger.buffers) ∧
          ∀ table, database.table? [target.name.toList] = some table →
            (engine.execute ledger).1 = .ok () ∧
              (engine.execute ledger).2.buffers =
                ledger.buffers.deliver target.buffer (table.answer engine.draft) ∧
              ∀ binding ∈ engine.draft.bindings, table.IsUnknown binding.field →
                ∀ row, table.passes engine.draft.params row binding =
                  decide (engine.draft.params[binding.placeholder.index]? =
                    some (.string binding.field))) := by
  intro engine hbackend hcompile houtput
  refine ⟨execute_spelledOut database query, fun hdot hstructured hcount => ?_⟩
  -- A draft that is compiled was collected from what its engine accepted.
  have hnumbered : engine.draft.bindings.map (·.placeholder.index) =
      List.range engine.draft.params.length := by
    have hpoisoned := (engine_compile_eq_ok hbackend hcompile).1
    rw [(Bench.run_draft {} rfl commands).eq_of_not_poisoned hpoisoned]
    exact Draft.collect_numbered _
  have hdelivery :=
    delivery_of_isStructured hbackend hcompile houtput hdot hstructured hnumbered hcount
  refine ⟨fun hmissing => ?_, fun table hfound => ?_⟩
  · rw [hmissing] at hdelivery
    exact Engine.execute_of_delivery_error hdelivery ledger
  · rw [hfound] at hdelivery
    obtain ⟨houtcome, hbuffers⟩ := Engine.execute_of_delivery hdelivery ledger
    exact ⟨houtcome, hbuffers, fun binding _ hunknown row => Table.passes_of_isUnknown hunknown row⟩

/-- The people of whom a misspelt field is asked: none, and no error. -/
theorem run_execute_structured_misspelt :
    let table : Table := ⟨"users", ["id", "name"], [[.int 1, .string "bob"], [.int 2, .null]]⟩
    let commands : List Bench.Command :=
      [.setBackend (backend {} [table]), .attach 0,
        .push 0 (.structured .start (.ofList [("nmae", .string "bob")])),
        .push 0 (.find ⟨"users", 0⟩), .sync]
    let engine := (Bench.run {} commands).engine
    table.IsUnknown "nmae" ∧ (engine.execute {}).1 = .ok () ∧
      (engine.execute {}).2.buffers.rows 0 = [] := by
  intro table commands engine
  have hdraft : engine.draft = ⟨[.filter .start [⟨"nmae", ⟨0⟩⟩], .setTarget], [.string "bob"],
      .setTarget, .setTarget, true, some ⟨"users", 0⟩, false⟩ := rfl
  have hengine : engine = { draft := engine.draft, backend := some (backend {} [table]) } := rfl
  have hcompile : (engine.compile {}).1 =
      .ok ⟨"SELECT * FROM \"users\" WHERE (\"nmae\" = ?1)", [.string "bob"], false⟩ := by
    rw [hengine, hdraft]
    rfl
  have hstructured : engine.draft.IsStructured fun binding => '.' ∉ binding.field.toList := by
    rw [hdraft]
    simp [Draft.IsStructured, Clause.IsStructured]
  have hanswer : table.answer engine.draft = [] := by
    rw [hdraft]
    decide +kernel
  obtain ⟨-, hexecute⟩ := @run_execute_structured commands {} [table] {} ⟨"users", 0⟩ _ rfl hcompile
    rfl
  have hfound : Database.table? [table] ["users".toList] = some table := by
    simp [table, Database.table?, sameName]
  obtain ⟨houtcome, hbuffers, -⟩ :=
    (hexecute (by decide) hstructured (by rw [hdraft]; decide)).2 table hfound
  refine ⟨by decide +kernel, houtcome, ?_⟩
  rw [hbuffers, Buffers.rows_deliver_self, hanswer]
  rfl

/-- **A field that is asked to equal its own name** is found in every row of a table without it. -/
theorem run_execute_unknown :
    let table : Table := ⟨"users", ["id"], [[.int 1], [.int 2]]⟩
    let commands : List Bench.Command :=
      [.setBackend (backend {} [table]), .attach 0,
        .push 0 (.structured .start (.ofList [("name", .string "name")])),
        .push 0 (.find ⟨"users", 0⟩), .sync]
    let engine := (Bench.run {} commands).engine
    table.IsUnknown "name" ∧ '.' ∉ "name".toList ∧ (engine.execute {}).1 = .ok () ∧
      (engine.execute {}).2.buffers.rows 0 =
        [.ofList [("id", .int 1)], .ofList [("id", .int 2)]] := by
  intro table commands engine
  have hdraft : engine.draft = ⟨[.filter .start [⟨"name", ⟨0⟩⟩], .setTarget], [.string "name"],
      .setTarget, .setTarget, true, some ⟨"users", 0⟩, false⟩ := rfl
  have hengine : engine = { draft := engine.draft, backend := some (backend {} [table]) } := rfl
  have hcompile : (engine.compile {}).1 =
      .ok ⟨"SELECT * FROM \"users\" WHERE (\"name\" = ?1)", [.string "name"], false⟩ := by
    rw [hengine, hdraft]
    rfl
  have hstructured : engine.draft.IsStructured fun binding => '.' ∉ binding.field.toList := by
    rw [hdraft]
    simp [Draft.IsStructured, Clause.IsStructured]
  have hanswer : table.answer engine.draft =
      [.ofList [("id", .int 1)], .ofList [("id", .int 2)]] := by
    rw [hdraft]
    decide +kernel
  have hfound : Database.table? [table] ["users".toList] = some table := by
    simp [table, Database.table?, sameName]
  have hdelivery := @delivery_of_isStructured engine {} [table] {} ⟨"users", 0⟩ _ rfl hcompile rfl
    (by decide) hstructured (by rw [hdraft]; rfl) (by rw [hdraft]; decide)
  rw [hfound] at hdelivery
  obtain ⟨houtcome, hbuffers⟩ := Engine.execute_of_delivery hdelivery {}
  refine ⟨by decide +kernel, by decide, houtcome, ?_⟩
  rw [hbuffers, Buffers.rows_deliver_self, hanswer]
  rfl

end ScreenedQuery.Sql
