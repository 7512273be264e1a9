import ScreenedQuery.Proofs.Plan.Selection
import ScreenedQuery.Proofs.Sql.Rendering

/-!
# The rows of a statement of structured filters

Whatever a table holds, the store makes a test for every binding on every row, and keeps the rows on
which the filters of the draft come to true. A test compares the column of the name that the field
is written with, or the number of the row, or, where a table has neither, the name itself as a text.
So every test has an outcome, and the statement of a draft of structured filters fails only for want
of its table.

## Main definitions

* `Sql.Table.operand`, `Sql.Table.passes`: what a field is compared as, and the test of a binding
* `Sql.Table.answer`: the rows on which the filters of a draft come to true
* `Sql.backendWithin`: a database whose store has a bound of its own for the numbers of parameters

## Main results

* `Sql.meaning?_of_tests`: the meaning of a condition on any table
* `Sql.executeWithin_of_isSimple`: the rows of the statement of a draft
* `Sql.executeWithin_of_missing`: there are none without the table
-/

namespace ScreenedQuery.Sql

/-! ## Tests -/

section

variable {table : Table} {params : List Value}

/-- What a field without dots is compared as: the column with its name, the number of the row, or
the name itself. -/
def Table.operand (table : Table) (field : String) : Meaning :=
  (Scope.column? ⟨table, none⟩ true [] field.toList).getD (.constant .null)

/-- **The test of a binding on a row**, as the store makes it. -/
def Table.passes (table : Table) (params : List Value) (row : StoredRow) (binding : Binding) :
    Bool :=
  let value := params[binding.placeholder.index]?
  let relation := if value = some .null then .same else .compare .eq
  truth (((table.operand binding.field).relate relation
    (.constant (stored (value.getD .null)))).value row) == some true

/-- **A quoted name has a meaning** on every table. -/
theorem column?_operand (table : Table) (field : String) :
    Scope.column? ⟨table, none⟩ true [] field.toList = some (table.operand field) := by
  have hsome : (Scope.column? ⟨table, none⟩ true [] field.toList).isSome := by
    simp only [Scope.column?, Scope.admits, Bool.not_true, Bool.false_eq_true, if_false]
    split
    · rfl
    · split <;> rfl
  obtain ⟨meaning, hmeaning⟩ := Option.isSome_iff_exists.mp hsome
  rw [Table.operand, hmeaning, Option.getD_some]

/-! ## Conditions -/

@[simp] theorem truth_ofTruth (outcome : Truth) : truth (ofTruth outcome) = outcome := by
  rcases outcome with _ | _ | _ <;> decide

/-- Whether a condition holds when its tests have outcomes; raw filters do not hold. -/
def Reading.holdsBy (outcome : Binding → Bool) : Reading → Bool
  | raw _ => false
  | test field _ placeholder => outcome ⟨field, placeholder⟩
  | and left right => left.holdsBy outcome && right.holdsBy outcome
  | or left right => left.holdsBy outcome || right.holdsBy outcome

/-- A condition of structured filters: null is compared by `IS`, and only null. -/
def Reading.IsTests (params : List Value) : Reading → Prop
  | raw _ => False
  | test _ isNull placeholder => isNull = decide (params[placeholder.index]? = some .null)
  | and left right | or left right => left.IsTests params ∧ right.IsTests params

/-- **The meaning of a condition**: it holds on a row exactly when its tests come to true. -/
theorem meaning?_of_tests {reading : Reading} (h : reading.IsTests params) {expr : Expr}
    (hexpr : reading.expr? = some expr) :
    ∃ meaning, expr.meaning? ⟨table, none⟩ params = some meaning ∧
      ∀ row, truth (meaning.value row) = some true ↔
        reading.holdsBy (table.passes params row) = true := by
  -- A condition that does not hold may be false or unknown, and joins without negation do not tell
  -- the two apart.
  induction reading generalizing expr with
  | raw text => exact absurd h id
  | test field isNull placeholder =>
    obtain rfl : isNull = decide (params[placeholder.index]? = some .null) := h
    obtain rfl := Option.some.inj hexpr
    refine ⟨_, ?_, fun row => beq_iff_eq.symm⟩
    simp only [Expr.meaning?, column?_operand, Scope.truthWord?, Nat.add_sub_cancel,
      Option.bind_eq_bind, Option.bind_some, decide_eq_true_eq]
    generalize (if params[placeholder.index]? = some .null then Relation.same
      else .compare .eq) = relation
    cases relation <;> rfl
  | and left right ihleft ihright =>
    simp only [Reading.expr?, Option.bind_eq_bind, Option.bind_eq_some_iff] at hexpr
    obtain ⟨first, hfirst, second, hsecond, hexpr⟩ := hexpr
    obtain rfl := Option.some.inj hexpr
    obtain ⟨a, ha, haholds⟩ := ihleft h.1 hfirst
    obtain ⟨b, hb, hbholds⟩ := ihright h.2 hsecond
    refine ⟨.join .and a b, by simp [Expr.meaning?, ha, hb], fun row => ?_⟩
    simp [Meaning.join, Truth.and_true, Reading.holdsBy, haholds row, hbholds row]
  | or left right ihleft ihright =>
    simp only [Reading.expr?, Option.bind_eq_bind, Option.bind_eq_some_iff] at hexpr
    obtain ⟨first, hfirst, second, hsecond, hexpr⟩ := hexpr
    obtain rfl := Option.some.inj hexpr
    obtain ⟨a, ha, haholds⟩ := ihleft h.1 hfirst
    obtain ⟨b, hb, hbholds⟩ := ihright h.2 hsecond
    refine ⟨.join .or a b, by simp [Expr.meaning?, ha, hb], fun row => ?_⟩
    simp [Meaning.join, Truth.or_true, Reading.holdsBy, haholds row, hbholds row]

end

/-! ## Drafts -/

section

variable {draft : Draft}

theorem testsReading_holdsBy (test : Binding → Bool) (first : Binding) (bindings : List Binding) :
    (testsReading draft first bindings).holdsBy test = (first :: bindings).all test := by
  induction bindings using List.reverseRecOn with
  | nil => simp [testsReading, testReading, Reading.holdsBy]
  | append_singleton bindings binding ih =>
    rw [testsReading, List.foldl_append, ← testsReading, List.foldl_cons, List.foldl_nil,
      Reading.holdsBy, ih, ← List.cons_append, List.all_append]
    simp [testReading, Reading.holdsBy]

/-- What a structured clause comes to is what its condition does. -/
theorem filterMap_outcome? {P : Binding → Prop} {clauses : List Clause}
    (h : ∀ clause ∈ clauses, clause.IsStructured P) (test : Binding → Bool) :
    clauses.filterMap (Clause.outcome? test) =
      (clauses.filterMap (clauseReading? draft)).map fun next => (next.1, next.2.holdsBy test) := by
  induction clauses with
  | nil => rfl
  | cons clause clauses ih =>
    rw [List.forall_mem_cons] at h
    rcases h.1.cases with (rfl | ⟨link, rfl⟩) | ⟨link, first, bindings, rfl, -⟩
    · exact ih h.2
    · exact ih h.2
    · have houtcome : Clause.outcome? test (.filter link (first :: bindings)) =
        some (link, (first :: bindings).all test) := rfl
      have hreading : clauseReading? draft (.filter link (first :: bindings)) =
        some (link, testsReading draft first bindings) := rfl
      rw [List.filterMap_cons_some houtcome, List.filterMap_cons_some hreading, ih h.2,
        List.map_cons, testsReading_holdsBy]

/-- **The filters of a draft come to what its condition does.** -/
theorem selectsBy_eq_holdsBy {P : Binding → Prop} (h : draft.IsStructured P)
    (test : Binding → Bool) :
    draft.selectsBy test = (draftReading? draft).all (Reading.holdsBy test) := by
  rw [Draft.selectsBy, filterMap_outcome? h, draftReading?]
  cases draft.clauses.filterMap (clauseReading? draft) with
  | nil => rfl
  | cons first nexts =>
    rw [List.map_cons, joinReadings?, Option.all_some]
    dsimp only
    -- What is selected so far and the tree so far say the same.
    generalize hselected : first.2.holdsBy test = selected
    generalize first.2 = tree at hselected
    induction nexts generalizing selected tree with
    | nil => exact hselected.symm
    | cons next nexts ih =>
      refine ih _ (joinReading tree next) ?_
      obtain ⟨link, reading⟩ := next
      cases link <;> simp [joinReading, Reading.holdsBy, Link.combine, hselected]

theorem testsReading_isTests (first : Binding) (bindings : List Binding) :
    (testsReading draft first bindings).IsTests draft.params := by
  induction bindings using List.reverseRecOn with
  | nil => exact rfl
  | append_singleton bindings binding ih =>
    rw [testsReading, List.foldl_append]
    exact ⟨ih, rfl⟩

/-- The condition of a draft of structured filters is made of its tests. -/
theorem draftReading?_isTests {P : Binding → Prop} (h : draft.IsStructured P) {tree : Reading}
    (htree : draftReading? draft = some tree) : tree.IsTests draft.params := by
  have hnexts : ∀ next ∈ draft.clauses.filterMap (clauseReading? draft),
      next.2.IsTests draft.params := by
    intro next hnext
    obtain ⟨clause, hclause, hsome⟩ := List.mem_filterMap.mp hnext
    rcases (h clause hclause).cases with
      (rfl | ⟨link, rfl⟩) | ⟨link, first, bindings, rfl, -⟩
    · simp [clauseReading?] at hsome
    · simp [clauseReading?] at hsome
    · obtain rfl := Option.some.inj hsome
      exact testsReading_isTests first bindings
  rw [draftReading?] at htree
  cases hall : draft.clauses.filterMap (clauseReading? draft) with
  | nil => simp [hall, joinReadings?] at htree
  | cons first nexts =>
    rw [hall, List.forall_mem_cons] at hnexts
    rw [hall] at htree
    obtain rfl := Option.some.inj htree
    obtain ⟨hfirst, hnexts⟩ := hnexts
    clear hall htree
    generalize first.2 = tree at hfirst
    induction nexts generalizing tree with
    | nil => exact hfirst
    | cons next nexts ih =>
      rw [List.forall_mem_cons] at hnexts
      refine ih hnexts.2 (joinReading tree next) ?_
      obtain ⟨link, reading⟩ := next
      cases link <;> exact ⟨hfirst, hnexts.1⟩

end

/-! ## Statements -/

section

variable {database : Database} {table : Table} {params : List Value}

/-- **The answer to a draft of structured filters**: the records of the rows on which the filters
come to true, in the order in which the rows were inserted. -/
def Table.answer (table : Table) (draft : Draft) : List Record :=
  (table.storedRows.filter fun row => draft.selectsBy (table.passes draft.params row)).map
    fun row => table.record row.cells

/-- **The rows of a selection**: those that are kept, in the order in which they were inserted. -/
theorem run_plainSelect {name : List Char} (hfound : database.table? [name] = some table)
    {condition : Option Expr} {meaning : Option Meaning}
    (hmeaning : condition.map (Expr.meaning? ⟨table, none⟩ params) = meaning.map some) :
    (plainSelect name condition).run database params =
      some ((table.storedRows.filter (keeps meaning)).map fun row => table.record row.cells) := by
  -- Without an order all rows are in order.
  have hsorted (rows : List StoredRow) :
      rows.mergeSort (fun a b => orderRows [] a b != .gt) = rows :=
    List.mergeSort_of_pairwise (List.pairwise_of_forall fun _ _ => rfl)
  cases condition with
  | none =>
    obtain rfl : meaning = none := by simpa using hmeaning.symm
    simp only [Select.run, plainSelect, hfound, List.mapM_nil, optionalCount?,
      Option.bind_eq_bind, Option.bind_some, Option.pure_def, hsorted]
    rfl
  | some expr =>
    obtain ⟨a, rfl, ha⟩ := Option.map_eq_some_iff.mp hmeaning.symm
    simp only [Select.run, plainSelect, hfound, ← ha, List.mapM_nil, optionalCount?,
      Option.bind_eq_bind, Option.bind_some, Option.map_some, Option.pure_def, hsorted]
    rfl

/-- The selection on the condition of a draft of structured filters is its answer. -/
theorem run_plainSelect_of_isStructured {draft : Draft} {P : Binding → Prop} {name : List Char}
    (hfound : database.table? [name] = some table) (hdraft : draft.IsStructured P)
    {condition : Option Expr}
    (hcondition : (draftReading? draft).map Reading.expr? = condition.map some) :
    (plainSelect name condition).run database draft.params = some (table.answer draft) := by
  have hkept {meaning : Option Meaning} (hkeeps : ∀ row, keeps meaning row =
        draft.selectsBy (table.passes draft.params row)) :
      some ((table.storedRows.filter (keeps meaning)).map fun row => table.record row.cells) =
        some (table.answer draft) := by
    rw [funext hkeeps, Table.answer]
  cases htree : draftReading? draft with
  | none =>
    obtain rfl : condition = none := by simpa [htree] using hcondition.symm
    have hmeans : (none : Option Expr).map (Expr.meaning? ⟨table, none⟩ draft.params) =
      (none : Option Meaning).map some := rfl
    refine (run_plainSelect hfound hmeans).trans (hkept fun row => ?_)
    rw [selectsBy_eq_holdsBy hdraft, htree]
    rfl
  | some tree =>
    rw [htree] at hcondition
    obtain ⟨expr, rfl, hexpr⟩ := Option.map_eq_some_iff.mp hcondition.symm
    obtain ⟨meaning, hmeaning, hholds⟩ :=
      @meaning?_of_tests table _ _ (draftReading?_isTests hdraft htree) _ hexpr.symm
    have hmeans : (some expr).map (Expr.meaning? ⟨table, none⟩ draft.params) =
      (some meaning).map some := congrArg some hmeaning
    refine (run_plainSelect hfound hmeans).trans (hkept fun row => ?_)
    rw [selectsBy_eq_holdsBy hdraft, htree, Option.all_some, Bool.eq_iff_iff, ← hholds row]
    exact beq_iff_eq

/-! ## A store with a bound of its own -/

/-- The rows of a compiled query, where a bound is given for the numbers of parameters. -/
def executeWithin (limit : Option Nat) (database : Database) (query : CompiledQuery) :
    Except BackendError (List Record) :=
  let rows := do
    let (select, largest) ← Select.ofTextWithin? limit query.text.toList
    if largest = query.params.length then select.run database query.params else none
  match rows with
  | some rows => .ok rows
  | none => .error .store

/-- **A database as a backend**, its store with a bound of its own for the numbers of
parameters. -/
def backendWithin (limit : Option Nat) (screen : Screen) (database : Database) : Backend :=
  { backend screen database with execute := executeWithin limit database }

@[simp] theorem compile_backendWithin (limit : Option Nat) (screen : Screen)
    (database : Database) : (backendWithin limit screen database).compile = compile screen := rfl

@[simp] theorem execute_backendWithin (limit : Option Nat) (screen : Screen)
    (database : Database) :
    (backendWithin limit screen database).execute = executeWithin limit database := rfl

/-- The store of the model has a bound. -/
theorem executeWithin_largestMarker (database : Database) :
    executeWithin (some largestMarker) database = execute database := by
  funext query
  have hread := ofTextWithin?_largestMarker query.text.toList
  unfold executeWithin execute
  exact hread ▸ rfl

/-- So does its backend. -/
theorem backendWithin_largestMarker (screen : Screen) (database : Database) :
    backendWithin (some largestMarker) screen database = backend screen database :=
  congrArg (fun run => { backend screen database with execute := run })
    (executeWithin_largestMarker database)

variable {screen : Screen} {draft : Draft}

/-- The placeholders of a draft that are numbered without gaps get the numbers from one on. -/
theorem draftNumbers_of_numbered
    (h : draft.bindings.map (·.placeholder.index) = List.range draft.params.length) :
    draftNumbers draft = (List.range draft.params.length).map (· + 1) := by
  rw [← h, List.map_map]
  rfl

/-- The largest of them is the count of the parameters. -/
theorem foldl_max_draftNumbers
    (h : draft.bindings.map (·.placeholder.index) = List.range draft.params.length) :
    (draftNumbers draft).foldl max 0 = draft.params.length := by
  rw [draftNumbers_of_numbered h]
  generalize draft.params.length = count
  induction count with
  | zero => rfl
  | succ count ih => simp [List.range_succ, ih]

/-- They are within a bound when the count is. -/
theorem withinLimit_of_mem_draftNumbers {limit : Option Nat} {number : Nat}
    (h : draft.bindings.map (·.placeholder.index) = List.range draft.params.length)
    (hlimit : withinLimit limit draft.params.length = true) (hmem : number ∈ draftNumbers draft) :
    withinLimit limit number = true := by
  rw [draftNumbers_of_numbered h, List.mem_map] at hmem
  obtain ⟨index, hindex, rfl⟩ := hmem
  rw [List.mem_range] at hindex
  simp only [withinLimit, Option.all_eq_true, decide_eq_true_eq] at hlimit ⊢
  exact fun bound hbound => le_trans hindex (hlimit bound hbound)

section

variable {limit : Option Nat} {target : Target}

/-- A statement is read, and carried out with the parameters of its draft. -/
theorem executeWithin_headText (hname : screen.flagsField target.name = false)
    (hdot : '.' ∉ target.name.toList) (hdraft : draft.IsStructured (IsSimple screen draft))
    (hnumbered : draft.bindings.map (·.placeholder.index) = List.range draft.params.length)
    (hlimit : withinLimit limit draft.params.length = true) (transactional : Bool) :
    ∃ condition, (draftReading? draft).map Reading.expr? = condition.map some ∧
      executeWithin limit database
          ⟨String.ofList (headText draft target), draft.params, transactional⟩ =
        match (plainSelect target.name.toList condition).run database draft.params with
        | some rows => .ok rows
        | none => .error .store := by
  obtain ⟨condition, hcondition, hselect⟩ := ofTextWithin?_headText hname hdot hdraft
    fun number hnumber => withinLimit_of_mem_draftNumbers hnumbered hlimit hnumber
  refine ⟨condition, hcondition, ?_⟩
  unfold executeWithin
  simp only [String.toList_ofList, hselect, foldl_max_draftNumbers hnumbered,
    Option.bind_eq_bind, Option.bind_some, if_true]

/-- **The rows of the statement of a draft** of structured filters. -/
theorem executeWithin_of_isSimple (hname : screen.flagsField target.name = false)
    (hdot : '.' ∉ target.name.toList) (hdraft : draft.IsStructured (IsSimple screen draft))
    (hnumbered : draft.bindings.map (·.placeholder.index) = List.range draft.params.length)
    (hlimit : withinLimit limit draft.params.length = true)
    (hfound : database.table? [target.name.toList] = some table) (transactional : Bool) :
    executeWithin limit database
        ⟨String.ofList (headText draft target), draft.params, transactional⟩ =
      .ok (table.answer draft) := by
  obtain ⟨condition, hcondition, hexecute⟩ :=
    executeWithin_headText hname hdot hdraft hnumbered hlimit transactional
  rw [hexecute, run_plainSelect_of_isStructured hfound hdraft hcondition]

/-- **Without its table the statement fails.** -/
theorem executeWithin_of_missing (hname : screen.flagsField target.name = false)
    (hdot : '.' ∉ target.name.toList) (hdraft : draft.IsStructured (IsSimple screen draft))
    (hnumbered : draft.bindings.map (·.placeholder.index) = List.range draft.params.length)
    (hlimit : withinLimit limit draft.params.length = true)
    (hmissing : database.table? [target.name.toList] = none) (transactional : Bool) :
    executeWithin limit database
        ⟨String.ofList (headText draft target), draft.params, transactional⟩ = .error .store := by
  obtain ⟨condition, -, hexecute⟩ :=
    @executeWithin_headText database screen draft limit target hname hdot hdraft hnumbered hlimit
      transactional
  have hnone : (plainSelect target.name.toList condition).run database draft.params = none := by
    simp only [Select.run, plainSelect, hmissing, Option.bind_eq_bind, Option.bind_none]
  rw [hexecute, hnone]

end

end

end ScreenedQuery.Sql
