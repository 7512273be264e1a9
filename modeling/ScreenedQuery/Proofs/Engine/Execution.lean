import ScreenedQuery.CommandLine.FragmentFile
import ScreenedQuery.Plan.Evaluation
import ScreenedQuery.Proofs.Engine.Delivery
import ScreenedQuery.Proofs.Engine.Run

/-!
# What an execution changes

An execution asks the backend for rows before it writes any. So it fails and writes nothing, or it
adds all rows of the query to one buffer, that of the target declared last. It leaves everything
else as it is, and the next execution does the same again.

## Main definitions

* `Engine.Fails`: why an execution delivers nothing
* `Engine.Delivers`: the rows that an execution delivers, and where
* `Bench.Appends`: a bench has what another has, and more rows
* `Bench.executed`: a bench after executions one after the other

## Main results

* `Engine.delivery_cases`: an execution fails for one of five causes, or it delivers
* `Bench.appends_step`, `Bench.appends_executed`: what one execution changes, and what many do
* `Bench.executed_cases`: on any bench executions all fail, or all add the same rows to one buffer
* `Bench.run_executed`: after any commands this is the buffer of the target declared last
-/

namespace ScreenedQuery

/-! ## Targets of drafts -/

/-- **The target of a draft is the one declared last.** -/
theorem Draft.collect_output (fragments : List Fragment) :
    (collect fragments).output = lastTarget? fragments := by
  induction fragments using List.reverseRecOn with
  | nil => rfl
  | append_singleton before fragment ih =>
    rw [collect_append_singleton, lastTarget?, List.foldl_append]
    cases fragment with
    | setTarget filter target => rfl
    | _ => exact ih

namespace Engine

variable {engine : Engine} {target : Target} {rows : List Record} {error : QueryError}

/-! ## Failure and delivery -/

/-- **Why an execution delivers nothing.** A cause counts only where those before it do not. -/
inductive Fails (engine : Engine) : QueryError → Prop
  /-- There is no backend. -/
  | backend (missing : engine.backend = none) : Fails engine .backendMissing
  /-- No target was declared. -/
  | target {backend : Backend} (found : engine.backend = some backend)
      (missing : engine.draft.output = none) : Fails engine .targetMissing
  /-- The draft has refused a fragment. -/
  | poisoned {backend : Backend} {target : Target} (found : engine.backend = some backend)
      (output : engine.draft.output = some target) (refused : engine.draft.poisoned = true) :
      Fails engine .draftPoisoned
  /-- The backend does not compile the draft. -/
  | compile {backend : Backend} {target : Target} {cause : BackendError}
      (found : engine.backend = some backend) (output : engine.draft.output = some target)
      (admitted : engine.draft.poisoned = false)
      (failed : backend.compile engine.draft = .error cause) : Fails engine (.backend cause)
  /-- The backend does not execute the query. -/
  | execute {backend : Backend} {target : Target} {query : CompiledQuery} {cause : BackendError}
      (found : engine.backend = some backend) (output : engine.draft.output = some target)
      (admitted : engine.draft.poisoned = false)
      (compiled : backend.compile engine.draft = .ok query)
      (failed : backend.execute { query with transactional := engine.transactional } =
        .error cause) : Fails engine (.backend cause)

/-- **What an execution delivers**: the rows of the compiled query, to the target of the draft. -/
structure Delivers (engine : Engine) (target : Target) (rows : List Record) : Prop where
  output : engine.draft.output = some target
  admitted : engine.draft.poisoned = false
  rows : ∃ backend query, engine.backend = some backend ∧
    backend.compile engine.draft = .ok query ∧
    backend.execute { query with transactional := engine.transactional } = .ok rows

/-- **An execution fails for one of five causes, or it delivers.** -/
theorem delivery_cases (engine : Engine) :
    (∃ error, engine.Fails error ∧ engine.delivery = .error error) ∨
      ∃ target rows, engine.Delivers target rows ∧ engine.delivery = .ok (target, rows) := by
  -- The checks of an execution, one after the other.
  cases hbackend : engine.backend with
  | none => exact .inl ⟨_, .backend hbackend, by simp [delivery, hbackend]⟩
  | some backend =>
    cases houtput : engine.draft.output with
    | none => exact .inl ⟨_, .target hbackend houtput, by simp [delivery, hbackend, houtput]⟩
    | some target =>
      cases hpoisoned : engine.draft.poisoned with
      | true =>
        refine .inl ⟨_, .poisoned hbackend houtput hpoisoned, ?_⟩
        simp [delivery, compile, hbackend, houtput, hpoisoned]
      | false =>
        cases hcompile : backend.compile engine.draft with
        | error cause =>
          refine .inl ⟨_, .compile hbackend houtput hpoisoned hcompile, ?_⟩
          simp [delivery, compile, hbackend, houtput, hpoisoned, hcompile]
        | ok query =>
          cases hexecute : backend.execute { query with transactional := engine.transactional } with
          | error cause =>
            refine .inl ⟨_, .execute hbackend houtput hpoisoned hcompile hexecute, ?_⟩
            simp [delivery, compile, hbackend, houtput, hpoisoned, hcompile, hexecute]
          | ok rows =>
            exact .inr ⟨target, rows,
              ⟨houtput, hpoisoned, backend, query, hbackend, hcompile, hexecute⟩,
              delivery_eq_ok hbackend houtput hpoisoned hcompile hexecute⟩

/-- The rows that an execution adds to what a target shows. -/
def added (engine : Engine) (handle : Target) : List Record :=
  match engine.delivery with
  | .error _ => []
  | .ok (target, rows) => if handle.sharesBuffer target then rows else []

theorem added_of_error (h : engine.delivery = .error error) (handle : Target) :
    engine.added handle = [] := by
  rw [added, h]

theorem added_of_ok (h : engine.delivery = .ok (target, rows)) (handle : Target) :
    engine.added handle = if handle.sharesBuffer target then rows else [] := by
  rw [added, h]

/-- **What a target shows behind an execution.** -/
theorem execute_rows_target (engine : Engine) (ledger : Ledger) (handle : Target) :
    (engine.execute ledger).2.buffers.rows handle.buffer =
      ledger.buffers.rows handle.buffer ++ engine.added handle := by
  rw [(engine.execute_eq ledger).2]
  cases hdelivery : engine.delivery with
  | error error => rw [added_of_error hdelivery, List.append_nil]
  | ok delivered =>
    obtain ⟨target, rows⟩ := delivered
    rw [added_of_ok hdelivery]
    by_cases hshares : handle.sharesBuffer target = true
    · have hbuffer : handle.buffer = target.buffer := beq_iff_eq.mp hshares
      rw [if_pos hshares, hbuffer]
      exact Buffers.rows_deliver_self _ _ _
    · have hbuffer : handle.buffer ≠ target.buffer := fun h => hshares (beq_iff_eq.mpr h)
      rw [if_neg hshares, List.append_nil]
      exact Buffers.rows_deliver_ne _ _ hbuffer

end Engine

namespace Bench

variable {bench next last : Bench}

/-! ## Executions -/

/-- **A bench has what another has, and more rows**: the same engine with its draft, its transaction
flag and its backend with all that it stores, the same queues, and behind the rows that a target
showed there those that are added for it. -/
structure Appends (bench next : Bench) (added : Target → List Record) : Prop where
  engine : next.engine = bench.engine
  queues : next.queues = bench.queues
  attached : next.attached = bench.attached
  rows : ∀ handle : Target, next.ledger.buffers.rows handle.buffer =
    bench.ledger.buffers.rows handle.buffer ++ added handle

theorem Appends.refl (bench : Bench) : bench.Appends bench fun _ => [] :=
  ⟨rfl, rfl, rfl, fun _ => (List.append_nil _).symm⟩

/-- What is added later stands behind what was added before. -/
theorem Appends.trans {first second : Target → List Record} (hfirst : bench.Appends next first)
    (hsecond : next.Appends last second) :
    bench.Appends last fun handle => first handle ++ second handle where
  engine := hsecond.engine.trans hfirst.engine
  queues := hsecond.queues.trans hfirst.queues
  attached := hsecond.attached.trans hfirst.attached
  rows handle := by rw [hsecond.rows, hfirst.rows, List.append_assoc]

/-- **What one execution changes.** -/
theorem appends_step (bench : Bench) :
    bench.Appends (bench.step .execute).2 bench.engine.added :=
  ⟨rfl, rfl, rfl, bench.engine.execute_rows_target bench.ledger⟩

/-- The answer to an execution depends on the engine alone. -/
theorem step_execute_fst (bench : Bench) :
    (bench.step .execute).1 = .executed (bench.engine.delivery.map fun _ => ()) :=
  congrArg Answer.executed (bench.engine.execute_eq bench.ledger).1

/-- A bench after a number of executions one after the other. -/
def executed (bench : Bench) (count : Nat) : Bench := bench.run (List.replicate count .execute)

theorem executed_succ (bench : Bench) (count : Nat) :
    bench.executed (count + 1) = ((bench.executed count).step .execute).2 := by
  rw [executed, List.replicate_succ', run_append_singleton, executed]

/-- **What executions change** one after the other: each adds the same rows. -/
theorem appends_executed (bench : Bench) (count : Nat) :
    bench.Appends (bench.executed count) fun handle =>
      (List.replicate count (bench.engine.added handle)).flatten := by
  induction count with
  | zero => exact .refl bench
  | succ count ih =>
    -- The last execution finds the engine as it was.
    have hstep := appends_step (bench.executed count)
    rw [ih.engine, ← executed_succ] at hstep
    have hboth := ih.trans hstep
    simpa only [List.replicate_succ', List.flatten_append, List.flatten_singleton] using hboth

theorem step_executed_fst (bench : Bench) (count : Nat) :
    ((bench.executed count).step .execute).1 =
      .executed (bench.engine.delivery.map fun _ => ()) := by
  rw [step_execute_fst, (appends_executed bench count).engine]

/-- **Executions all fail, or they all add the same rows** to one buffer. -/
theorem executed_cases (bench : Bench) :
    (∃ error, bench.engine.Fails error ∧ ∀ count,
      ((bench.executed count).step .execute).1 = .executed (.error error) ∧
        bench.Appends (bench.executed count) fun _ => []) ∨
    ∃ target rows, bench.engine.Delivers target rows ∧ ∀ count,
      ((bench.executed count).step .execute).1 = .executed (.ok ()) ∧
        bench.Appends (bench.executed count) fun handle =>
          if handle.sharesBuffer target then (List.replicate count rows).flatten else [] := by
  rcases bench.engine.delivery_cases with ⟨error, hfails, hdelivery⟩ |
    ⟨target, rows, hdelivers, hdelivery⟩
  · refine .inl ⟨error, hfails, fun count => ⟨?_, ?_⟩⟩
    · rw [step_executed_fst, hdelivery]
      rfl
    · simpa [Engine.added_of_error hdelivery] using appends_executed bench count
  · refine .inr ⟨target, rows, hdelivers, fun count => ⟨?_, ?_⟩⟩
    · rw [step_executed_fst, hdelivery]
      rfl
    · have hadded (handle : Target) : (List.replicate count (bench.engine.added handle)).flatten =
          if handle.sharesBuffer target then (List.replicate count rows).flatten else [] := by
        rw [Engine.added_of_ok hdelivery]
        split
        · rfl
        · -- However often nothing is added to another buffer, it stays as it is.
          exact List.flatten_replicate_nil
      simpa only [hadded] using appends_executed bench count

/-- **Executions touch one buffer, and only on success.** Take the bench after any commands, with
any rows in the buffers. If its executions fail, then each of them for the same cause, and no target
shows other rows than before. Otherwise each of them succeeds and adds the rows of the query to what
is shown by the target declared last by an accepted fragment, by its copies, and by no other target.
Apart from the tally nothing else changes. That these are the same rows each time rests on a backend
answering a query always in the same way, which texts that ask a store for something new do not. -/
theorem run_executed (commands : List Command) (ledger : Ledger) :
    let bench := { run {} commands with ledger }
    (∃ error, bench.engine.Fails error ∧ ∀ count,
      ((bench.executed count).step .execute).1 = .executed (.error error) ∧
        bench.Appends (bench.executed count) fun _ => []) ∨
    ∃ target rows, bench.engine.Delivers target rows ∧
      lastTarget? (accepted {} commands) = some target ∧ ∀ count,
        ((bench.executed count).step .execute).1 = .executed (.ok ()) ∧
          bench.Appends (bench.executed count) fun handle =>
            if handle.sharesBuffer target then (List.replicate count rows).flatten else [] := by
  intro bench
  rcases bench.executed_cases with hfails | ⟨target, rows, hdelivers, hexecuted⟩
  · exact .inl hfails
  · refine .inr ⟨target, rows, hdelivers, ?_, hexecuted⟩
    -- A draft that is executed has refused nothing, so that it is that of the accepted fragments.
    have hdraft : bench.engine.draft = .collect (accepted {} commands) :=
      (run_draft {} rfl commands).eq_of_not_poisoned hdelivers.admitted
    rw [← Draft.collect_output, ← hdraft]
    exact hdelivers.output

example :
    let ada : Record := .ofList [("name", .string "Ada")]
    let bench := run {} [.setBackend (Plan.backend {} (.ofList [("people", [ada])])), .attach 0,
      .push 0 (.find ⟨"people", 0⟩), .sync]
    ((bench.executed 2).ledger.buffers.rows 0, (bench.executed 2).ledger.buffers.rows 1) =
      ([ada, ada], []) := by
  decide +kernel

end Bench

end ScreenedQuery
