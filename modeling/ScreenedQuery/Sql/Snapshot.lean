import ScreenedQuery.Json.Reader
import ScreenedQuery.Json.Shape
import ScreenedQuery.Sql.Evaluation
import ScreenedQuery.Value.Encoding

/-!
# Snapshots

A database can be kept as a JSON text: the array of its tables, each with its name, the names of
its columns and its rows of tagged values. A table has distinct columns, and every row has a value
for each of them.

## Main definitions

* `Sql.Table.ofJson?`: the table of a JSON value
* `Sql.Database.ofSnapshot?`: the database of a text

## Main results

* `Sql.Table.wellFormed_of_ofJson?`: a table that is read has rows as long as its columns
-/

namespace ScreenedQuery.Sql

/-- A table is well formed when its columns are distinct up to the case of ASCII letters and every
row has a value for each of them. -/
def Table.WellFormed (table : Table) : Prop :=
  (table.columns.map fun column => lower column.toList).Nodup ∧
    ∀ row ∈ table.rows, row.length = table.columns.length

instance (table : Table) : Decidable table.WellFormed :=
  inferInstanceAs (Decidable (_ ∧ _))

/-- **The table of a JSON value.** -/
def Table.ofJson? (json : Json) : Option Table := do
  let parts ← json.parts? ["name", "columns", "rows"] true
  let name ← Json.required parts "name" Json.toText?
  let columns ← Json.required parts "columns" (Json.toList? Json.toText?)
  let rows ← Json.required parts "rows" (Json.toList? (Json.toList? Value.ofJson?))
  if (Table.mk name columns rows).WellFormed then some ⟨name, columns, rows⟩ else none

/-- **The database of a text.** An empty text is a database without tables. -/
def Database.ofSnapshot? (text : String) : Option Database :=
  if text.isEmpty then some [] else (Json.parse text).bind (Json.toList? Table.ofJson?)

/-- A table that is read has rows as long as its columns. -/
theorem Table.wellFormed_of_ofJson? {json : Json} {table : Table}
    (h : Table.ofJson? json = some table) : table.WellFormed := by
  simp only [Table.ofJson?, Option.bind_eq_bind, Option.bind_eq_some_iff] at h
  obtain ⟨_, _, _, _, _, _, _, _, h⟩ := h
  split at h
  · rename_i hw
    simpa [← Option.some.inj h] using hw
  · simp at h

end ScreenedQuery.Sql
