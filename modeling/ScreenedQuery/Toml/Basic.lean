import ScreenedQuery.Number.Binary64

/-!
# TOML documents

A document is a table of named values. A table can be named in several ways — by a header, by the
header of a table inside it, by a dotted name, or written in line — and the way decides whether it
can be named again and added to.

## Main definitions

* `Toml`: values
* `Toml.Entries.within`: a change inside the table that a header names
* `Toml.Entries.openTable`, `Toml.Entries.openItem`: what a header does
* `Toml.Entries.assign`: what a line with a dotted name does

## Main results

* `Toml.Entries.assign_twice`: a name is not given a value twice
-/

namespace ScreenedQuery

/-- How a table came to be named. -/
inductive Toml.Origin
  | header
  /-- By the header of a table inside it. -/
  | implied
  | dotted
  | inline
  deriving DecidableEq

/-- **A value.** -/
inductive Toml
  | string (s : String)
  | boolean (b : Bool)
  | integer (n : Int64)
  | float (x : Binary64)
  /-- A date, a time or both, as written. -/
  | moment (text : String)
  | array (items : List Toml)
  /-- The tables that repeated headers have named. -/
  | tables (items : List Toml)
  | table (origin : Toml.Origin) (entries : List (String × Toml))
  deriving Inhabited

namespace Toml

/-- The entries of a table, in the order in which they were named. -/
abbrev Entries := List (String × Toml)

namespace Entries

/-- Gives an entry that is there another value. -/
def replace (entries : Entries) (name : String) (value : Toml) : Entries :=
  entries.map fun entry => if entry.1 = name then (name, value) else entry

/-- A change inside the last of the tables that repeated headers have named. -/
def inLast (change : Entries → Option Entries) (items : List Toml) : Option (List Toml) :=
  match items.getLast? with
  | some (.table origin entries) =>
    (change entries).map fun entries => items.dropLast ++ [.table origin entries]
  | _ => none

/-- **A change inside the table that a header names.** Tables on the way that are not there are
made; of repeated ones the last is meant. -/
def within (change : Entries → Option Entries) : List String → Entries → Option Entries
  | [], entries => change entries
  | name :: path, entries =>
    match entries.lookup name with
    | none =>
      (within change path []).map fun inner => entries ++ [(name, .table .implied inner)]
    | some (.table .inline _) => none
    | some (.table origin inner) =>
      (within change path inner).map fun inner => entries.replace name (.table origin inner)
    | some (.tables items) =>
      (inLast (within change path) items).map fun items => entries.replace name (.tables items)
    | some _ => none

/-- The header of a table: the table must not be there, unless it was only implied. -/
def openTable (name : String) (entries : Entries) : Option Entries :=
  match entries.lookup name with
  | none => some (entries ++ [(name, .table .header [])])
  | some (.table .implied inner) => some (entries.replace name (.table .header inner))
  | some _ => none

/-- The repeated header of a table: one more table. -/
def openItem (name : String) (entries : Entries) : Option Entries :=
  match entries.lookup name with
  | none => some (entries ++ [(name, .tables [.table .header []])])
  | some (.tables items) => some (entries.replace name (.tables (items ++ [.table .header []])))
  | some _ => none

/-- **A line that gives a dotted name a value.** The name must be new, and the table that it is put
into must have been named by dotted names only. -/
def assign (value : Toml) : List String → Entries → Option Entries
  | [], _ => none
  | [name], entries =>
    if (entries.lookup name).isSome then none else some (entries ++ [(name, value)])
  | name :: next :: path, entries =>
    match entries.lookup name with
    | none =>
      (assign value (next :: path) []).map fun inner => entries ++ [(name, .table .dotted inner)]
    | some (.table .dotted inner) =>
      (assign value (next :: path) inner).map fun inner =>
        entries.replace name (.table .dotted inner)
    | some (.table .implied inner) =>
      if path.isEmpty then none
      else (assign value (next :: path) inner).map fun inner =>
        entries.replace name (.table .implied inner)
    | some (.tables items) =>
      if path.isEmpty then none
      else (inLast (assign value (next :: path)) items).map fun items =>
        entries.replace name (.tables items)
    | some _ => none

/-- An entry that was appended is found. -/
theorem lookup_append_self (entries : Entries) (name : String) (value : Toml) :
    ((entries ++ [(name, value)]).lookup name).isSome := by
  induction entries with
  | nil => simp
  | cons entry entries ih =>
    obtain ⟨other, _⟩ := entry
    rw [List.cons_append, List.lookup_cons]
    split
    · rfl
    · exact ih

/-- A name is not given a value twice. -/
theorem assign_twice {entries after : Entries} {name : String} {value : Toml}
    (h : assign value [name] entries = some after) (other : Toml) :
    assign other [name] after = none := by
  simp only [assign] at h ⊢
  split at h
  · simp at h
  · simp only [Option.some.injEq] at h
    rw [if_pos (h ▸ lookup_append_self entries name value)]

end Entries

end Toml

end ScreenedQuery
