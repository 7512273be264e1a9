import ScreenedQuery.Engine.Basic

/-!
# Engines on a bench

On a bench one engine is worked by hand: fragments are put into queues, a queue is attached to the
engine, the backend is exchanged. Queues are known by the numbers in which they were made, and a
number that no queue has stands for nothing.

## Main definitions

* `Bench`: an engine, the queues and the ledger
* `Bench.Command`, `Bench.Answer`: what can be asked of a bench, and what it answers
* `Bench.step`: a command carried out

## Main results

* `Bench.step_sync_detached`: without a queue a sync is refused and changes nothing
-/

namespace ScreenedQuery

/-- **A bench.** -/
structure Bench where
  engine : Engine := {}
  /-- The queues, in the order in which they were made. -/
  queues : List (Queue Fragment) := [.empty]
  /-- The number of the queue that the engine takes fragments from. -/
  attached : Option Nat := none
  ledger : Ledger := {}

namespace Bench

/-- What can be asked of a bench. -/
inductive Command
  /-- Put a fragment into a queue. -/
  | push (queue : Nat) (fragment : Fragment)
  /-- Attach a queue to the engine. -/
  | attach (queue : Nat)
  | newQueue
  /-- Drop the fragments of a queue. -/
  | clearQueue (queue : Nat)
  | setBackend (backend : Backend)
  | startTransaction
  | reset
  /-- Move the fragments of the attached queue into the draft. -/
  | sync
  | compile
  /-- Compile the draft and execute the query. -/
  | execute
  | rows (target : Target)
  | take (target : Target)
  /-- Look at the tally, and start it anew if asked. -/
  | tally (restart : Bool)

inductive Answer
  | done
  /-- The kind of the fragment that was put into a queue. -/
  | pushed (kind : Kind)
  | synced (outcome : Except QueryError Unit)
  | compiled (outcome : Except QueryError CompiledQuery)
  | executed (outcome : Except QueryError Unit)
  | rows (rows : List Record)
  | tally (tally : Tally)

def queue (bench : Bench) (number : Nat) : Queue Fragment := bench.queues[number]?.getD .empty

/-- Replaces a queue, if it is there. -/
def setQueue (bench : Bench) (number : Nat) (queue : Queue Fragment) : Bench :=
  { bench with queues := bench.queues.set number queue }

/-- A sync with the attached queue. -/
def sync (bench : Bench) : Except QueryError Unit × Bench :=
  match bench.attached with
  | none => (.error .queueDetached, bench)
  | some number =>
    let synced := bench.engine.sync (bench.queue number) bench.ledger.tally
    (synced.outcome,
      { bench.setQueue number synced.queue with
        engine := synced.engine
        ledger := { bench.ledger with tally := synced.tally } })

/-- **A command carried out.** -/
def step (bench : Bench) : Command → Answer × Bench
  | .push number fragment =>
    (.pushed fragment.kind, bench.setQueue number ((bench.queue number).push fragment))
  | .attach number =>
    (.done, { bench with
      attached := if number < bench.queues.length then some number else bench.attached })
  | .newQueue => (.done, { bench with queues := bench.queues ++ [.empty] })
  | .clearQueue number => (.done, bench.setQueue number (bench.queue number).clear)
  | .setBackend backend =>
    (.done, { bench with engine := { bench.engine with backend := some backend } })
  | .startTransaction => (.done, { bench with engine := bench.engine.startTransaction })
  | .reset => (.done, { bench with engine := bench.engine.reset })
  | .sync => let (outcome, bench) := bench.sync; (.synced outcome, bench)
  | .compile =>
    let (outcome, tally) := bench.engine.compile bench.ledger.tally
    (.compiled outcome, { bench with ledger := { bench.ledger with tally } })
  | .execute =>
    let (outcome, ledger) := bench.engine.execute bench.ledger
    (.executed outcome, { bench with ledger })
  | .rows target => (.rows (bench.ledger.buffers.rows target.buffer), bench)
  | .take target =>
    let (rows, buffers) := bench.ledger.buffers.take target.buffer
    (.rows rows, { bench with ledger := { bench.ledger with buffers } })
  | .tally restart =>
    (.tally bench.ledger.tally,
      if restart then { bench with ledger := { bench.ledger with tally := {} } } else bench)

/-- Without a queue a sync is refused and changes nothing. -/
theorem step_sync_detached {bench : Bench} (h : bench.attached = none) :
    bench.step .sync = (.synced (.error .queueDetached), bench) := by
  simp [step, sync, h]

end Bench

end ScreenedQuery
