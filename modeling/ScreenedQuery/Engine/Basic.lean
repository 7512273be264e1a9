import ScreenedQuery.Buffers
import ScreenedQuery.Draft.Accept
import ScreenedQuery.Queue
import ScreenedQuery.Tally

/-!
# Engines

An engine owns one draft and at most one backend. A sync moves the fragments of a queue into the
draft; the draft is then compiled, or compiled and executed, as often as one likes. A draft that
refused a fragment is of no use until the engine is reset.

## Main definitions

* `Ledger`: the row buffers and the tally, which outlive an engine
* `Engine`: draft, transaction flag and backend
* `Engine.sync`, `Engine.compile`, `Engine.execute`, `Engine.reset`: what an engine does

## Main results

* `Engine.sync_of_poisoned`: a poisoned engine takes nothing out of a queue
* `Engine.execute_error`: an execution that fails delivers no rows
-/

namespace ScreenedQuery

/-- What outlives an engine: the row buffers and the tally. -/
structure Ledger where
  buffers : Buffers := .empty
  tally : Tally := {}

/-- **An engine.** -/
structure Engine where
  /-- The query as far as it has been put together. -/
  draft : Draft := .empty
  /-- Whether the next query is to run in a transaction. -/
  transactional : Bool := false
  backend : Option Backend := none

namespace Engine

/-- Discards the draft and the wish for a transaction. -/
def reset (engine : Engine) : Engine :=
  { engine with draft := .empty, transactional := false }

def startTransaction (engine : Engine) : Engine := { engine with transactional := true }

/-- What a sync leaves behind. -/
structure Synced where
  /-- Why the sync failed, if it did. -/
  outcome : Except QueryError Unit
  engine : Engine
  /-- The fragments that were not taken. -/
  queue : Queue Fragment
  tally : Tally

/-- **Moves the fragments of a queue into the draft** until one is refused. A poisoned draft takes
none. -/
def sync (engine : Engine) (queue : Queue Fragment) (tally : Tally) : Synced :=
  if engine.draft.poisoned then ⟨.error .draftPoisoned, engine, queue, tally⟩
  else
    let drained := engine.draft.drain engine.backend queue.items
    { outcome := match drained.error with
        | some error => .error error
        | none => .ok ()
      engine := { engine with draft := drained.draft }
      queue := ⟨drained.rest⟩
      tally := { tally with
        sync := tally.sync + 1
        accepted := tally.accepted + drained.accepted
        rejected := tally.rejected + if drained.error.isSome then 1 else 0 } }

/-- **Compiles the draft.** -/
def compile (engine : Engine) (tally : Tally) : Except QueryError CompiledQuery × Tally :=
  match engine.backend with
  | none => (.error .backendMissing, tally)
  | some backend =>
    if engine.draft.poisoned then (.error .draftPoisoned, tally)
    else
      let tally := { tally with compile := tally.compile + 1 }
      match backend.compile engine.draft with
      | .error cause => (.error (.backend cause), tally)
      | .ok query => (.ok { query with transactional := engine.transactional }, tally)

/-- **Compiles the draft and delivers the rows of the query** to the target. What goes wrong in the
backend is passed on, a panic as well. -/
def execute (engine : Engine) (ledger : Ledger) : Except QueryError Unit × Ledger :=
  match engine.backend, engine.draft.output with
  | none, _ => (.error .backendMissing, ledger)
  | some _, none => (.error .targetMissing, ledger)
  | some backend, some target =>
    match engine.compile ledger.tally with
    | (.error error, tally) => (.error error, { ledger with tally })
    | (.ok query, tally) =>
      let tally := { tally with execute := tally.execute + 1 }
      match backend.execute query with
      | .error cause => (.error (.backend cause), { ledger with tally })
      | .ok rows => (.ok (), ⟨ledger.buffers.deliver target.buffer rows, tally⟩)

/-- A poisoned engine takes nothing out of a queue, and does not change. -/
theorem sync_of_poisoned {engine : Engine} (h : engine.draft.poisoned) (queue : Queue Fragment)
    (tally : Tally) : engine.sync queue tally = ⟨.error .draftPoisoned, engine, queue, tally⟩ := by
  simp [sync, h]

/-- An execution that fails delivers no rows. -/
theorem execute_error {engine : Engine} {ledger : Ledger} {error : QueryError}
    (h : (engine.execute ledger).1 = .error error) :
    (engine.execute ledger).2.buffers = ledger.buffers := by
  revert h
  unfold execute
  split
  · exact fun _ => rfl
  · exact fun _ => rfl
  · split
    · exact fun _ => rfl
    · split
      · exact fun _ => rfl
      · exact fun h => nomatch h

end Engine

end ScreenedQuery
