import ScreenedQuery.Proofs.Engine.Delivery
import ScreenedQuery.Proofs.Engine.Sync
import ScreenedQuery.Session

/-!
# Sessions keep queries apart

A session with an engine is asked for queries one after the other. Fragments may be synced in
portions on the way, a sync may fail, and a query may fail when it is compiled or executed. What a
query comes to depends on nothing but what was asked since the query before it was finished, and a
fresh engine that takes all its fragments at once comes to the same.

## Main definitions

* `Session.Call`, `Session.run`: what a session with an engine is asked, one after the other
* `Session.Pending`: the query that a session is about to finish
* `Session.Pending.compiled`, `Session.Pending.executed`: what a fresh engine makes of a query

## Main results

* `Session.serves_run`: the engine holds the part of the query that was synced, the queue the rest
* `Session.run_isolated`: a query comes to what a fresh engine makes of it, and leaves nothing
-/

namespace ScreenedQuery.Session

/-! ## Calls and the query they build -/

/-- What a session is asked while it has one engine. -/
inductive Call
  | push (fragment : Fragment)
  | transaction
  | sync
  | compile
  | execute

/-- A call as a command of the session. -/
def Call.command : Call → Command
  | push fragment => .push fragment
  | transaction => .transaction
  | sync => .sync
  | compile => .compile
  | execute => .execute

/-- A session after calls. -/
def run (session : Session) : List Call → Session
  | [] => session
  | call :: calls => run (session.step call.command).2 calls

/-- **The query that a session is about to finish**: what was asked since it finished the last
one. -/
structure Pending where
  /-- The fragments that were pushed. -/
  fragments : List Fragment := []
  /-- Whether a transaction was started. -/
  transactional : Bool := false
  /-- Whether a sync has failed. -/
  failed : Bool := false

/-- The query behind a call. One that is compiled or executed is finished. -/
def Pending.behind (pending : Pending) (session : Session) : Call → Pending
  | .push fragment => { pending with fragments := pending.fragments ++ [fragment] }
  | .transaction => { pending with transactional := true }
  | .sync => { pending with failed := pending.failed || !session.sync.1.isOk }
  | .compile | .execute => {}

/-- The query behind calls, from the one before them. -/
def pendingBehind (session : Session) (pending : Pending) : List Call → Pending
  | [] => pending
  | call :: calls => pendingBehind (session.step call.command).2 (pending.behind session call) calls

/-- **The query of a session after calls.** Fragments that wait from the start are part of it. -/
def pending (session : Session) (calls : List Call) : Pending :=
  session.pendingBehind { fragments := session.queue.items } calls

namespace Pending

/-- A fresh engine after one sync of all fragments of a query, in a transaction if one was
started. -/
def synced (pending : Pending) (backend : Option Backend) : Engine.Synced :=
  let engine : Engine := { backend }
  (if pending.transactional then engine.startTransaction else engine).sync ⟨pending.fragments⟩ {}

/-- **What a fresh engine compiles** of a query. -/
def compiled (pending : Pending) (backend : Option Backend) : Except QueryError CompiledQuery :=
  match (pending.synced backend).outcome with
  | .error error => .error error
  | .ok () => ((pending.synced backend).engine.compile {}).1

/-- **What a fresh engine executes** of a query, into empty buffers. -/
def executed (pending : Pending) (backend : Option Backend) : Except QueryError Unit × Buffers :=
  match (pending.synced backend).outcome with
  | .error error => (.error error, .empty)
  | .ok () =>
    let (outcome, ledger) := (pending.synced backend).engine.execute {}
    (outcome, ledger.buffers)

end Pending

/-! ## What a session holds of its query -/

variable {backend : Option Backend} {pending : Pending} {session : Session}

/-- **What a session holds of the query that it is about to finish.** Either the engine has taken
a first part of the fragments and the rest waits, or a sync has failed and the draft is
poisoned. -/
inductive Serves (backend : Option Backend) (pending : Pending) : Session → Prop
  | whole {taken waiting : List Fragment} {ledger : Ledger}
      (fragments : pending.fragments = taken ++ waiting)
      (admits : Draft.AdmitsAll backend [] taken) (succeeded : pending.failed = false) :
      Serves backend pending
        ⟨⟨waiting⟩, some ⟨.collect taken, pending.transactional, backend⟩, ledger⟩
  | poisoned {queue : Queue Fragment} {draft : Draft} {ledger : Ledger}
      (poisoned : draft.poisoned = true) (failed : pending.failed = true) :
      Serves backend pending ⟨queue, some ⟨draft, pending.transactional, backend⟩, ledger⟩

/-- A session with an empty queue and a fresh engine has nothing of a query. -/
theorem serves_fresh (backend : Option Backend) (ledger : Ledger) :
    Serves backend {} ⟨.empty, some { backend }, ledger⟩ :=
  @Serves.whole backend {} [] [] ledger rfl Draft.admitsAll_nil rfl

theorem serves_push (h : Serves backend pending session) (fragment : Fragment) :
    Serves backend (pending.behind session (.push fragment)) (session.push fragment) := by
  cases h with
  | whole hfragments hadmits hfailed =>
    exact .whole (by simp [Pending.behind, hfragments]) hadmits hfailed
  | poisoned hpoisoned hfailed => exact .poisoned hpoisoned hfailed

theorem serves_transaction (h : Serves backend pending session) :
    Serves backend (pending.behind session .transaction) session.transaction.2 := by
  cases h with
  | whole hfragments hadmits hfailed => exact .whole hfragments hadmits hfailed
  | poisoned hpoisoned hfailed => exact .poisoned hpoisoned hfailed

/-- A sync takes all that waits, or fails and poisons the draft. -/
theorem serves_sync (h : Serves backend pending session) :
    Serves backend (pending.behind session .sync) session.sync.2 := by
  cases h with
  | @whole taken waiting ledger hfragments hadmits hfailed =>
    have hdraft : (⟨.collect taken, pending.transactional, backend⟩ : Engine).draft =
      .collect taken := rfl
    rcases Draft.admitsAll_or_refuses backend taken waiting with
      hall | ⟨middle, fragment, after, error, rfl, hall, hrefuses⟩
    · -- What the engine has taken grows by all that waits.
      have hsync := Engine.sync_eq_of_admitsAll hdraft hall ledger.tally
      have hwhole : pending.fragments = (taken ++ waiting) ++ [] := by simp [hfragments]
      simp only [Pending.behind, sync, hsync, hfailed]
      exact .whole hwhole (Draft.admitsAll_append_iff.mpr ⟨hadmits, by simpa using hall⟩) rfl
    · have hsync := Engine.sync_eq_of_refuses hdraft hall hrefuses after ledger.tally
      simp only [Pending.behind, sync, hsync]
      exact .poisoned rfl (by simp [Except.isOk, Except.toBool])
  | @poisoned queue draft ledger hpoisoned hfailed =>
    have hsync := @Engine.sync_of_poisoned ⟨draft, pending.transactional, backend⟩ hpoisoned
    simp only [Pending.behind, sync, hsync, hfailed]
    exact .poisoned hpoisoned rfl

/-! ## Finishing a query -/

theorem Pending.synced_eq (pending : Pending) (backend : Option Backend) :
    pending.synced backend =
      Engine.sync ⟨.empty, pending.transactional, backend⟩ ⟨pending.fragments⟩ {} := by
  unfold Pending.synced
  cases pending.transactional <;> rfl

/-- A sync that succeeds leaves nothing in the queue. -/
theorem Pending.synced_queue (h : (pending.synced backend).outcome = .ok ()) :
    (pending.synced backend).queue = .empty := by
  rw [pending.synced_eq] at h ⊢
  have hdraft : (⟨.empty, pending.transactional, backend⟩ : Engine).draft = .collect [] := rfl
  rw [Engine.sync_eq_of_admitsAll hdraft (Engine.admitsAll_of_sync_eq_ok hdraft h)]

/-- A sync does not exchange the backend. -/
theorem Pending.reset_synced (pending : Pending) (backend : Option Backend) :
    (pending.synced backend).engine.reset = { backend } := by
  rw [pending.synced_eq]
  rfl

/-- **A query that is finished.** The answer is that of a fresh engine, unless a sync has failed,
and what is left is an empty queue and a fresh engine. -/
theorem finish_eq {α : Type} (h : Serves backend pending session)
    (use : Engine → Ledger → Except QueryError α × Ledger) :
    ∃ tally, session.finish use =
      let ledger := { session.ledger with tally }
      let answer : Except QueryError α × Ledger :=
        if pending.failed then (.error .draftPoisoned, ledger)
        else match (pending.synced backend).outcome with
          | .error error => (.error error, ledger)
          | .ok () => use (pending.synced backend).engine ledger
      (answer.1, ⟨.empty, some { backend }, answer.2⟩) := by
  cases h with
  | @whole taken waiting ledger hfragments hadmits hfailed =>
    -- What the engine has taken and what waits are the query, and both go into one sync.
    have hdraft : (⟨.collect taken, pending.transactional, backend⟩ : Engine).draft =
      .collect taken := rfl
    obtain ⟨tally, hsync⟩ := Engine.sync_behind hdraft hadmits waiting ledger.tally
    rw [← hfragments, ← pending.synced_eq] at hsync
    refine ⟨tally, ?_⟩
    simp only [finish, hsync, hfailed, Bool.false_eq_true, if_false, pending.reset_synced]
    cases houtcome : (pending.synced backend).outcome with
    | error error => rfl
    | ok _ =>
      -- Nothing waits behind a sync that succeeds, and what fails later clears the queue.
      rw [Pending.synced_queue houtcome]
      dsimp only
      cases (use (pending.synced backend).engine { ledger with tally }).1 <;> rfl
  | @poisoned queue draft ledger hpoisoned hfailed =>
    have hsync := @Engine.sync_of_poisoned ⟨draft, pending.transactional, backend⟩ hpoisoned
      queue ledger.tally
    refine ⟨ledger.tally, ?_⟩
    simp only [finish, hsync, hfailed, if_true]
    rfl

/-- A query that is compiled or executed is finished, and the next one has not begun. -/
theorem serves_finish {α : Type} (h : Serves backend pending session)
    (use : Engine → Ledger → Except QueryError α × Ledger) :
    Serves backend {} (session.finish use).2 := by
  obtain ⟨tally, hfinish⟩ := finish_eq h use
  rw [hfinish]
  exact serves_fresh backend _

/-- **A call keeps what the session holds of its query.** -/
theorem serves_step (h : Serves backend pending session) (call : Call) :
    Serves backend (pending.behind session call) (session.step call.command).2 := by
  cases call with
  | push fragment => exact serves_push h fragment
  | transaction => exact serves_transaction h
  | sync => exact serves_sync h
  | compile =>
    exact serves_finish h fun engine ledger =>
      ((engine.compile ledger.tally).1, { ledger with tally := (engine.compile ledger.tally).2 })
  | execute => exact serves_finish h Engine.execute

/-- **After any calls the session holds its query.** -/
theorem serves_run (h : Serves backend pending session) (calls : List Call) :
    Serves backend (session.pendingBehind pending calls) (session.run calls) := by
  induction calls generalizing session pending with
  | nil => exact h
  | cons call calls ih => exact ih (serves_step h call)

/-! ## Isolation -/

theorem compile_of_serves (h : Serves backend pending session) :
    session.compile.1 =
        (if pending.failed then .error .draftPoisoned else pending.compiled backend) ∧
      session.compile.2.ledger.buffers = session.ledger.buffers ∧
      session.compile.2.queue = .empty ∧ session.compile.2.engine = some { backend } := by
  obtain ⟨tally, hcompile⟩ := finish_eq h fun engine ledger =>
    ((engine.compile ledger.tally).1, { ledger with tally := (engine.compile ledger.tally).2 })
  have hcompile : session.compile = _ := hcompile
  rw [hcompile, Pending.compiled]
  cases pending.failed with
  | true => exact ⟨rfl, rfl, rfl, rfl⟩
  | false =>
    cases (pending.synced backend).outcome with
    | error error => exact ⟨rfl, rfl, rfl, rfl⟩
    | ok _ => exact ⟨Engine.compile_fst _ tally, rfl, rfl, rfl⟩

theorem execute_of_serves (h : Serves backend pending session) :
    session.execute.1 =
        (if pending.failed then .error .draftPoisoned else (pending.executed backend).1) ∧
      (∀ buffer, session.execute.2.ledger.buffers.rows buffer =
        session.ledger.buffers.rows buffer ++
          if pending.failed then [] else (pending.executed backend).2.rows buffer) ∧
      session.execute.2.queue = .empty ∧ session.execute.2.engine = some { backend } := by
  obtain ⟨tally, hexecute⟩ := finish_eq h Engine.execute
  rw [execute, hexecute, Pending.executed]
  cases pending.failed with
  | true => exact ⟨rfl, fun _ => (List.append_nil _).symm, rfl, rfl⟩
  | false =>
    cases (pending.synced backend).outcome with
    | error error => exact ⟨rfl, fun _ => (List.append_nil _).symm, rfl, rfl⟩
    | ok _ =>
      refine ⟨?_, fun buffer => Engine.execute_rows _ _ buffer, rfl, rfl⟩
      exact (Engine.execute_eq _ _).1.trans (Engine.execute_eq _ {}).1.symm

/-- Without an engine a session refuses what needs one, and does not change. -/
theorem refuses_without_engine (h : session.engine = none) :
    session.transaction = (.error .layerMissing, session) ∧
      session.sync = (.error .layerMissing, session) ∧
      session.compile = (.error .layerMissing, session) ∧
      session.execute = (.error .layerMissing, session) := by
  simp [transaction, sync, compile, execute, finish, h]

/-- **Queries do not leak into one another.** Whatever a session with an engine was asked, the
query it compiles or executes next comes to what a fresh engine makes of the fragments pushed since
the query before, all in one sync; after a failed sync it comes to nothing. Either way no fragment
waits afterwards and the engine is fresh. -/
theorem run_isolated (session : Session) (backend : Option Backend) (calls : List Call) :
    let start := session.attach backend
    let pending := start.pending calls
    let last := start.run calls
    (last.compile.1 =
        (if pending.failed then .error .draftPoisoned else pending.compiled backend) ∧
      last.compile.2.ledger.buffers = last.ledger.buffers ∧
      last.compile.2.queue = .empty ∧ last.compile.2.engine = some { backend }) ∧
    (last.execute.1 =
        (if pending.failed then .error .draftPoisoned else (pending.executed backend).1) ∧
      (∀ buffer, last.execute.2.ledger.buffers.rows buffer =
        last.ledger.buffers.rows buffer ++
          if pending.failed then [] else (pending.executed backend).2.rows buffer) ∧
      last.execute.2.queue = .empty ∧ last.execute.2.engine = some { backend }) ∧
    (∀ detached : Session, detached.engine = none →
      detached.transaction = (.error .layerMissing, detached) ∧
      detached.sync = (.error .layerMissing, detached) ∧
      detached.compile = (.error .layerMissing, detached) ∧
      detached.execute = (.error .layerMissing, detached)) := by
  intro start pending last
  have hstart : Serves backend { fragments := session.queue.items } start :=
    @Serves.whole backend _ [] session.queue.items session.ledger rfl Draft.admitsAll_nil rfl
  have hlast : Serves backend pending last := serves_run hstart calls
  exact ⟨compile_of_serves hlast, execute_of_serves hlast, fun _ => refuses_without_engine⟩

end ScreenedQuery.Session
