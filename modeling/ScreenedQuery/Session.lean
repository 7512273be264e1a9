import ScreenedQuery.Engine.Basic

/-!
# Sessions

In a session fragments are queued and one engine is driven through whole queries: a query is
synced and compiled or executed in one go, and afterwards, whatever came of it, the engine starts
afresh. When a query fails, the fragments behind the fault are dropped with it.

## Main definitions

* `Session`: a queue, an engine and the ledger
* `Session.Command`, `Session.Answer`: what can be asked of a session, and what it answers
* `Session.step`: a command carried out

## Main results

* `Session.step_execute_without_engine`: without an engine nothing is executed, and nothing
  changes
-/

namespace ScreenedQuery

/-- **A session.** -/
structure Session where
  /-- The fragments that wait for the next sync. -/
  queue : Queue Fragment := .empty
  engine : Option Engine := none
  ledger : Ledger := {}

namespace Session

/-- What can be asked of a session. -/
inductive Command
  | push (fragment : Fragment)
  /-- Attach a new engine in place of the one there is. -/
  | attach (backend : Option Backend)
  | transaction
  /-- Move the queued fragments into the draft. -/
  | sync
  /-- Sync, compile and start afresh. -/
  | compile
  /-- Sync, execute and start afresh. -/
  | execute
  /-- Take all fragments out of the queue. -/
  | drain
  | rows (target : Target)
  | take (target : Target)
  /-- Look at the tally, and start it anew if asked. -/
  | tally (restart : Bool)

inductive Answer
  | done
  | outcome (outcome : Except QueryError Unit)
  | compiled (outcome : Except QueryError CompiledQuery)
  /-- The kinds of the fragments that were taken out. -/
  | drained (kinds : List Kind)
  | rows (rows : List Record)
  | tally (tally : Tally)

def push (session : Session) (fragment : Fragment) : Session :=
  { session with queue := session.queue.push fragment }

def attach (session : Session) (backend : Option Backend) : Session :=
  { session with engine := some { backend } }

def transaction (session : Session) : Except QueryError Unit × Session :=
  match session.engine with
  | none => (.error .layerMissing, session)
  | some engine => (.ok (), { session with engine := some engine.startTransaction })

/-- Moves the queued fragments into the draft. -/
def sync (session : Session) : Except QueryError Unit × Session :=
  match session.engine with
  | none => (.error .layerMissing, session)
  | some engine =>
    let synced := engine.sync session.queue session.ledger.tally
    (synced.outcome,
      { queue := synced.queue
        engine := some synced.engine
        ledger := { session.ledger with tally := synced.tally } })

/-- **A query in one go.** The engine is synced and used, then reset; after a failure the queue is
cleared. -/
def finish {α : Type} (session : Session)
    (use : Engine → Ledger → Except QueryError α × Ledger) : Except QueryError α × Session :=
  match session.engine with
  | none => (.error .layerMissing, session)
  | some engine =>
    let synced := engine.sync session.queue session.ledger.tally
    let ledger := { session.ledger with tally := synced.tally }
    let (outcome, ledger) : Except QueryError α × Ledger := match synced.outcome with
      | .error error => (.error error, ledger)
      | .ok () => use synced.engine ledger
    let queue := match outcome with
      | .error _ => synced.queue.clear
      | .ok _ => synced.queue
    (outcome, { queue, engine := some synced.engine.reset, ledger })

def compile (session : Session) : Except QueryError CompiledQuery × Session :=
  session.finish fun engine ledger =>
    let (outcome, tally) := engine.compile ledger.tally
    (outcome, { ledger with tally })

def execute (session : Session) : Except QueryError Unit × Session :=
  session.finish Engine.execute

/-- **A command carried out.** -/
def step (session : Session) : Command → Answer × Session
  | .push fragment => (.done, session.push fragment)
  | .attach backend => (.done, session.attach backend)
  | .transaction => let (outcome, session) := session.transaction; (.outcome outcome, session)
  | .sync => let (outcome, session) := session.sync; (.outcome outcome, session)
  | .compile => let (outcome, session) := session.compile; (.compiled outcome, session)
  | .execute => let (outcome, session) := session.execute; (.outcome outcome, session)
  | .drain =>
    (.drained (session.queue.items.map Fragment.kind),
      { session with queue := session.queue.clear })
  | .rows target => (.rows (session.ledger.buffers.rows target.buffer), session)
  | .take target =>
    let (rows, buffers) := session.ledger.buffers.take target.buffer
    (.rows rows, { session with ledger := { session.ledger with buffers } })
  | .tally restart =>
    (.tally session.ledger.tally,
      if restart then { session with ledger := { session.ledger with tally := {} } } else session)

/-- Without an engine nothing is executed, and nothing changes. -/
theorem step_execute_without_engine {session : Session} (h : session.engine = none) :
    session.step .execute = (.outcome (.error .layerMissing), session) := by
  simp [step, execute, finish, h]

end Session

end ScreenedQuery
