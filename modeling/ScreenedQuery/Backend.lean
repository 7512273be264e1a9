import ScreenedQuery.CompiledQuery
import ScreenedQuery.Draft.Basic
import ScreenedQuery.QueryError

/-!
# Backends

A backend screens texts and field names, turns a draft into a query of its own language, and
carries such a query out on what it stores.

## Main definitions

* `Backend`: the four things a backend does
-/

namespace ScreenedQuery

/-- **A backend.** What it stores does not change. What it answers is taken as a function of the
query. This leaves out texts in which a relational store is asked for something new each time, such
as `random()` or `CURRENT_TIMESTAMP`: they may be answered in another way when they are executed
again. -/
structure Backend where
  /-- Whether a text must not come into a query. -/
  flagsText : String → Bool
  /-- Whether a field name must not come into a query. -/
  flagsField : String → Bool
  compile : Draft → Except BackendError CompiledQuery
  execute : CompiledQuery → Except BackendError (List Record)

end ScreenedQuery
