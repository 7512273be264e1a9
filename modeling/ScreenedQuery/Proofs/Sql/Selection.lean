import Mathlib.Data.List.Nodup
import ScreenedQuery.Proofs.FieldMap
import ScreenedQuery.Proofs.Sql.Rows
import ScreenedQuery.Sql.Snapshot

/-!
# What a statement of structured filters selects

On a table whose cells are null, whole numbers, texts or bytes the store compares values as they
are, and the test of a column on a row comes to what its binding says of the record of the row. So
the store answers the statement of a draft with the records that the draft selects, in the order in
which the rows were inserted.

## Main definitions

* `Value.IsExact`: the values that a store keeps as they are
* `Sql.IsOver`: a binding of a column with such a value

## Main results

* `Sql.truth_relation`: comparisons of the store and of values agree
* `Sql.passes_eq_holds`: so do the tests of the store and the bindings of a draft
* `Sql.executeWithin_of_isStructured`: the rows of the statement of a draft
-/

namespace ScreenedQuery

/-- **A value that a store keeps as it is**: null, a whole number, a text or bytes. -/
def Value.IsExact : Value → Prop
  | null | int _ | string _ | bytes _ => True
  | bool _ | float _ => False

instance : DecidablePred Value.IsExact
  | .null | .int _ | .string _ | .bytes _ => .isTrue trivial
  | .bool _ | .float _ => .isFalse id

namespace Sql

/-! ## Values -/

theorem stored_of_isExact {value : Value} (h : value.IsExact) : stored value = value := by
  cases value with
  | bool b => exact absurd h id
  | float x => exact absurd h id
  | _ => rfl

/-- The relation that a value is compared by: null by `IS`, and any other value by `=`. -/
def relationTo (value : Value) : Relation := if value = .null then .same else .compare .eq

/-- The order of the store tells values apart that it keeps as they are. -/
theorem order_eq_iff {a b : Value} (ha : a.IsExact) (hb : b.IsExact) :
    order a b = .eq ↔ a = b := by
  cases a with
  | bool x => exact absurd ha id
  | float x => exact absurd ha id
  | null => cases b <;> simp [order, storageClass]
  | int n =>
    cases b with
    | float x => exact absurd hb id
    | bool x => exact absurd hb id
    | int m => simp [Int64.toInt_inj]
    | _ => simp [order, storageClass]
  | string s => cases b <;> simp [order, storageClass]
  | bytes bs => cases b <;> simp [order, storageClass]

/-- Equality of values that the store keeps as they are. -/
theorem eq_holds_iff {a b : Value} (ha : a.IsExact) (hb : b.IsExact) :
    Comparison.eq.holds (some a) b = true ↔ a = b := by
  cases a with
  | bool x => exact absurd ha id
  | float x => exact absurd ha id
  | null => cases b <;> simp [Comparison.holds]
  | int n =>
    cases b with
    | float x => exact absurd hb id
    | int m => simp [Comparison.holds, Value.compare, Comparison.allows, Int64.toInt_inj]
    | _ => simp [Comparison.holds, Value.compare]
  | string s => cases b <;> simp [Comparison.holds, Value.compare, Comparison.allows]
  | bytes bs => cases b <;> simp [Comparison.holds, Value.compare, Comparison.allows]

/-- **Comparisons of the store and of values agree** on values that are kept as they are. -/
theorem truth_relation {actual expected : Value} (hactual : actual.IsExact)
    (hexpected : expected.IsExact) :
    truth ((relationTo expected).apply actual expected) = some true ↔
      Comparison.eq.holds (some actual) expected = true := by
  rw [eq_holds_iff hactual hexpected, ← order_eq_iff hactual hexpected]
  unfold relationTo
  by_cases hnull : expected = .null
  · simp [hnull, Relation.apply]
  · by_cases hleft : actual = .null
    · -- A comparison with null is unknown, and null is no other value.
      rw [order_eq_iff hactual hexpected, if_neg hnull, hleft, Relation.apply_null_left]
      simpa [truth] using Ne.symm hnull
    · simp [hnull, hleft, Relation.apply, Comparison.allows]

/-! ## Columns -/

/-- A table whose cells are kept as they are. -/
def Table.IsExact (table : Table) : Prop := ∀ row ∈ table.rows, ∀ cell ∈ row, cell.IsExact

section

variable {table : Table}

/-- **A column is found** by the name that it is written with. -/
theorem operand_of_mem (hwellFormed : table.WellFormed) {column : String}
    (h : column ∈ table.columns) :
    ∃ index : Nat, table.columns[index]? = some column ∧
      table.operand column = ⟨false, fun row : StoredRow => row.cells[index]?.getD .null⟩ := by
  obtain ⟨index, hindex⟩ : ∃ index,
      table.columns.findIdx? (fun other => sameName other.toList column.toList) = some index := by
    rw [← Option.isSome_iff_exists, List.findIdx?_isSome, List.any_eq_true]
    exact ⟨column, h, by simp [sameName]⟩
  obtain ⟨hlt, hsame, -⟩ := List.findIdx?_eq_some_iff_getElem.mp hindex
  refine ⟨index, ?_, ?_⟩
  · -- No other column has this name up to the case of letters.
    have hcolumn : table.columns[index] = column :=
      List.inj_on_of_nodup_map hwellFormed.1 (List.getElem_mem hlt) h (eq_of_beq hsame)
    rw [List.getElem?_eq_getElem hlt, hcolumn]
  · simp only [Table.operand, Scope.column?, Scope.admits, Bool.not_true, Bool.false_eq_true,
      if_false, hindex, Option.getD_some]

/-- **The cell of a column** is the field of the record. -/
theorem get?_record (hwellFormed : table.WellFormed) {row : List Value} (hrow : row ∈ table.rows)
    {index : Nat} {column : String} (hcolumn : table.columns[index]? = some column) :
    ∃ cell ∈ row, row[index]? = some cell ∧ (table.record row).get? column = some cell := by
  obtain ⟨hlt, rfl⟩ := List.getElem?_eq_some_iff.mp hcolumn
  have hlength := hwellFormed.2 row hrow
  have hcell : row[index]? = some row[index] := List.getElem?_eq_getElem (by omega)
  have hnodup : ((table.columns.zip row).map (·.1)).Nodup := by
    rw [List.map_fst_zip (by omega)]
    exact List.Nodup.of_map _ hwellFormed.1
  refine ⟨row[index], List.getElem_mem _, hcell, ?_⟩
  refine FieldMap.get?_ofList_of_mem hnodup ?_
  have hpair : (table.columns.zip row)[index]? = some (table.columns[index], row[index]) := by
    rw [List.getElem?_zip_eq_some]
    exact ⟨hcolumn, hcell⟩
  exact List.mem_of_getElem? hpair

/-! ## Tests -/

/-- A binding of a column with a value that is kept as it is. -/
def IsOver (table : Table) (params : List Value) (binding : Binding) : Prop :=
  binding.field ∈ table.columns ∧
    ∃ value, params[binding.placeholder.index]? = some value ∧ value.IsExact

/-- **The test of a column comes to what its binding says** of the record of a row. -/
theorem passes_eq_holds (hwellFormed : table.WellFormed) (hexact : table.IsExact)
    {params : List Value} {binding : Binding} (hover : IsOver table params binding)
    (number : Nat) {row : List Value} (hrow : row ∈ table.rows) :
    table.passes params ⟨number, row⟩ binding = binding.holds params (table.record row) := by
  obtain ⟨hfield, value, hvalue, hkept⟩ := hover
  obtain ⟨index, hindex, hoperand⟩ := operand_of_mem hwellFormed hfield
  obtain ⟨cell, hmem, hcell, hget⟩ := get?_record hwellFormed hrow hindex
  have hholds := truth_relation (hexact row hrow cell hmem) hkept
  rw [relationTo] at hholds
  rw [Bool.eq_iff_iff]
  simpa [Table.passes, Binding.holds, Meaning.relate, Meaning.constant, hoperand, hcell, hget,
    hvalue, stored_of_isExact hkept] using hholds

/-- **On a table of cells that are kept as they are** the answer to a draft of structured filters
is made of the records that the draft selects. -/
theorem answer_of_isExact (hwellFormed : table.WellFormed) (hexact : table.IsExact)
    {draft : Draft} (hdraft : draft.IsStructured (IsOver table draft.params)) :
    table.answer draft = (table.rows.map table.record).filter draft.selects := by
  -- Every stored row is a row of the table with a number.
  have hstored : table.storedRows = table.rows.zipIdx.map fun row => ⟨row.2 + 1, row.1⟩ := by
    refine List.map_congr_left fun row hrow => ?_
    have hcells : row.1.map stored = row.1 := by
      refine (List.map_congr_left fun cell hcell => ?_).trans (List.map_id row.1)
      exact stored_of_isExact (hexact row.1 (List.fst_mem_of_mem_zipIdx hrow) cell hcell)
    simp only [hcells]
  have hfilter : (table.storedRows.filter fun row =>
        draft.selectsBy (table.passes draft.params row)) =
      table.storedRows.filter (draft.selects ∘ fun row => table.record row.cells) := by
    refine List.filter_congr fun stored hmem => ?_
    rw [hstored] at hmem
    obtain ⟨⟨row, index⟩, hrow, rfl⟩ := List.mem_map.mp hmem
    rw [Function.comp_apply, Draft.selects_eq_selectsBy]
    refine Draft.selectsBy_congr fun clause hclause binding hbinding => ?_
    have hover := (hdraft clause hclause).of_mem_bindings hbinding
    exact passes_eq_holds hwellFormed hexact hover _ (List.fst_mem_of_mem_zipIdx hrow)
  have hrecords : table.storedRows.map (fun row => table.record row.cells) =
      table.rows.map table.record := by
    rw [hstored, List.map_map, ← List.zipIdx_map_fst 0 table.rows, List.map_map]
    simp [Function.comp_def]
  rw [Table.answer, hfilter, ← List.filter_map, hrecords]

end

/-! ## Statements -/

section

variable {database : Database} {table : Table} {screen : Screen} {draft : Draft}

/-- **The rows of the statement of a draft** of structured filters on columns of a table are the
records that the draft selects. -/
theorem executeWithin_of_isStructured {limit : Option Nat} {target : Target}
    (hfound : database.table? [target.name.toList] = some table)
    (hwellFormed : table.WellFormed) (hexact : table.IsExact)
    (hname : screen.flagsField target.name = false) (hdot : '.' ∉ target.name.toList)
    (hcolumns : ∀ column ∈ table.columns, screen.flagsField column = false ∧ '.' ∉ column.toList)
    (hdraft : draft.IsStructured (IsOver table draft.params))
    (hnumbered : draft.bindings.map (·.placeholder.index) = List.range draft.params.length)
    (hlimit : withinLimit limit draft.params.length = true) (transactional : Bool) :
    executeWithin limit database
        ⟨String.ofList (headText draft target), draft.params, transactional⟩ =
      .ok ((table.rows.map table.record).filter draft.selects) := by
  have hsimple : draft.IsStructured (IsSimple screen draft) := by
    refine hdraft.imp fun binding hover => ?_
    obtain ⟨hfield, value, hvalue, -⟩ := hover
    exact ⟨⟨(hcolumns _ hfield).1, by rw [Draft.param?, hvalue]; rfl⟩, (hcolumns _ hfield).2⟩
  rw [executeWithin_of_isSimple hname hdot hsimple hnumbered hlimit hfound,
    answer_of_isExact hwellFormed hexact hdraft]

end

end Sql

end ScreenedQuery
