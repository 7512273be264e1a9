import ScreenedQuery.Proofs.Engine.Agreement
import ScreenedQuery.Proofs.Engine.Poison
import ScreenedQuery.Proofs.Session.Remains
import ScreenedQuery.Proofs.Traversal

/-!
# The accounts of a session

The tally of a session against what happens in it. No fragment gets lost: one that was pushed was
accepted or rejected by a draft, or dropped with a query that failed, or it still waits. A sync is
counted unless it is refused before it takes a fragment, and every call of a backend is counted,
whatever comes of it.

## Main definitions

* `Session.Events`: what happened in a session, in numbers
* `Session.events`, `Session.eventsOf`: what happens with a command, and with commands
* `Draft.RefusesIn`: some fragment is refused
* `Session.Accounts`: the tally and the queue have changed by what happened

## Main results

* `Engine.sync_tally`, `Engine.compile_tally`, `Engine.execute_tally`: what an engine counts
* `Engine.isBegun_sync`, `Engine.failsOnFragment_sync_iff`: when a sync is begun, and when it fails
* `Session.accounts_step`, `Session.accounts_carryOut`: the accounts of a command, and of a run
* `Session.carryOut_tally_lt`: counters of 64 bits do not wrap in a run that is not too long
* `Session.compiles_iff`, `Session.executes_iff`: a command asks a backend if it tells of failures
* `Session.run_accounts`: the accounts of a run from an empty tally
-/

namespace ScreenedQuery

/-! ## What an engine counts -/

/-- **Why a fragment is refused**: it is at fault itself, or there is no backend to screen it. -/
theorem Draft.accept_eq_error {draft : Draft} {backend : Option Backend} {fragment : Fragment}
    {error : QueryError} (h : draft.accept backend fragment = .error error) :
    error.isValidation = true ∨ error = .backendMissing := by
  have hchain {kind : Kind} {link : Link} (h : draft.chainRule kind link = .error error) :
      error.isValidation = true := by
    unfold chainRule at h
    split at h <;> split at h <;> cases h <;> rfl
  have htext {kind : Kind} {text : String} (h : screenText backend kind text = .error error) :
      error.isValidation = true ∨ error = .backendMissing := by
    rcases screenText_eq_error_iff.mp h with ⟨-, rfl⟩ | ⟨_, -, -, rfl⟩
    · exact .inr rfl
    · exact .inl rfl
  have hfilter {kind : Kind} {filter : Filter}
      (h : screenFilter backend kind filter = .error error) :
      error.isValidation = true ∨ error = .backendMissing := by
    rcases screenFilter_eq_error_iff.mp h with ⟨-, -, rfl⟩ | ⟨_, -, _, -, -, -, rfl⟩
    · exact .inr rfl
    · exact .inl rfl
  have h := map_eq_error_iff.mp h
  -- The checks of a fragment, one after the other; only the filter of a target can go unchecked.
  cases fragment with
  | structured link filter =>
    rcases check_eq_error_iff.mp h with h | ⟨-, h⟩
    · exact .inl (hchain h)
    · rcases check_eq_error_iff.mp h with h | ⟨-, h⟩
      · exact hfilter h
      · cases h
  | raw link text =>
    rcases check_eq_error_iff.mp h with h | ⟨-, h⟩
    · exact .inl (hchain h)
    · rcases check_eq_error_iff.mp h with h | ⟨-, h⟩
      · exact htext h
      · cases h
  | setTarget filter target =>
    simp only [extend] at h
    split at h
    · cases h
    · rcases check_eq_error_iff.mp h with h | ⟨-, h⟩
      · exact hfilter h
      · cases h
  | misc payload => cases h

theorem Draft.drain_error {backend : Option Backend} {draft : Draft} {fragments : List Fragment}
    {error : QueryError} (h : (draft.drain backend fragments).error = some error) :
    error.isValidation = true ∨ error = .backendMissing := by
  induction fragments generalizing draft with
  | nil => cases h
  | cons fragment rest ih =>
    rw [drain] at h
    cases haccept : draft.accept backend fragment with
    | error cause =>
      rw [haccept] at h
      obtain rfl := Option.some.inj h
      exact accept_eq_error haccept
    | ok next =>
      rw [haccept] at h
      exact ih h

/-- What is refused on account of a fragment is not refused up front. -/
theorem Draft.isUpFront_of_drain {backend : Option Backend} {draft : Draft}
    {fragments : List Fragment} {error : QueryError}
    (h : (draft.drain backend fragments).error = some error) : error.isUpFront = false := by
  rcases drain_error h with hcause | rfl
  · cases error <;> first | rfl | cases hcause
  · rfl

/-- **Some fragment is refused**, behind fragments that were accepted. -/
def Draft.RefusesIn (backend : Option Backend) (draft : Draft) (fragments : List Fragment) : Prop :=
  ∃ taken fragment rest before error, fragments = taken ++ fragment :: rest ∧
    taken.foldlM (fun draft fragment => draft.accept backend fragment) draft = .ok before ∧
    before.accept backend fragment = .error error

theorem Draft.isSome_error_drain_iff {backend : Option Backend} {draft : Draft}
    {fragments : List Fragment} :
    (draft.drain backend fragments).error.isSome = true ↔ draft.RefusesIn backend fragments := by
  induction fragments generalizing draft with
  | nil => simp [drain, RefusesIn]
  | cons fragment rest ih =>
    rw [drain]
    cases haccept : draft.accept backend fragment with
    | error error =>
      exact iff_of_true rfl ⟨[], fragment, rest, draft, error, rfl, rfl, haccept⟩
    | ok next =>
      refine ih.trans ⟨?_, ?_⟩
      · rintro ⟨taken, refused, after, before, error, rfl, htaken, hrefused⟩
        refine ⟨fragment :: taken, refused, after, before, error, rfl, ?_, hrefused⟩
        rw [List.foldlM_cons, haccept]
        exact htaken
      · rintro ⟨taken, refused, after, before, error, hsplit, htaken, hrefused⟩
        cases taken with
        | nil =>
          -- The first fragment is accepted, so that it is not the refused one.
          obtain ⟨rfl, -⟩ := List.cons.inj hsplit
          obtain rfl := Except.ok.inj htaken
          cases haccept.symm.trans hrefused
        | cons head taken =>
          obtain ⟨rfl, rfl⟩ := List.cons.inj hsplit
          rw [List.foldlM_cons, haccept] at htaken
          exact ⟨taken, refused, after, before, error, rfl, htaken, hrefused⟩

/-- Whether a sync is begun: it is not refused before it takes a fragment. -/
def isBegun : Except QueryError Unit → Bool
  | .error error => !error.isUpFront
  | .ok () => true

/-- Whether a sync fails on a fragment. -/
def failsOnFragment : Except QueryError Unit → Bool
  | .error error => !error.isUpFront
  | .ok () => false

namespace Engine

/-- Whether the engine asks its backend to compile the draft. -/
def asksToCompile (engine : Engine) : Bool := engine.backend.isSome && !engine.draft.poisoned

/-- Whether an execution asks the backend to compile the draft: there is a target, too. -/
def asksToCompileFirst (engine : Engine) : Bool :=
  engine.draft.output.isSome && engine.asksToCompile

/-- Whether an execution asks the backend to execute a query: the draft was compiled. -/
def asksToExecute (engine : Engine) : Bool :=
  engine.draft.output.isSome && (engine.compile {}).1.isOk

/-- **A sync is begun unless the draft is poisoned.** -/
theorem isBegun_sync (engine : Engine) (queue : Queue Fragment) (tally : Tally) :
    isBegun (engine.sync queue tally).outcome = !engine.draft.poisoned := by
  cases hpoisoned : engine.draft.poisoned with
  | true =>
    rw [sync_of_poisoned hpoisoned]
    rfl
  | false =>
    cases herror : (engine.draft.drain engine.backend queue.items).error <;>
      simp [sync, hpoisoned, herror, isBegun]
    exact Draft.isUpFront_of_drain herror

theorem failsOnFragment_sync (engine : Engine) (queue : Queue Fragment) (tally : Tally) :
    failsOnFragment (engine.sync queue tally).outcome =
      (!engine.draft.poisoned &&
        (engine.draft.drain engine.backend queue.items).error.isSome) := by
  cases hpoisoned : engine.draft.poisoned with
  | true =>
    rw [sync_of_poisoned hpoisoned]
    rfl
  | false =>
    cases herror : (engine.draft.drain engine.backend queue.items).error <;>
      simp [sync, hpoisoned, herror, failsOnFragment]
    exact Draft.isUpFront_of_drain herror

/-- **A sync that is begun fails on a fragment that the draft refuses**, and on nothing else. -/
theorem failsOnFragment_sync_iff {engine : Engine} {queue : Queue Fragment} {tally : Tally} :
    failsOnFragment (engine.sync queue tally).outcome = true ↔
      engine.draft.poisoned = false ∧ engine.draft.RefusesIn engine.backend queue.items := by
  rw [failsOnFragment_sync, ← Draft.isSome_error_drain_iff]
  simp

/-- **What a sync counts**: itself unless it was refused up front, and what it takes out of the
queue. -/
theorem sync_tally (engine : Engine) (queue : Queue Fragment) (tally : Tally) :
    let synced := engine.sync queue tally
    ∃ accepted, synced.tally = { tally with
        sync := tally.sync + (isBegun synced.outcome).toNat
        accepted := tally.accepted + accepted
        rejected := tally.rejected + (failsOnFragment synced.outcome).toNat } ∧
      queue.size = accepted + (failsOnFragment synced.outcome).toNat + synced.queue.size := by
  dsimp only
  rw [isBegun_sync, failsOnFragment_sync]
  cases hpoisoned : engine.draft.poisoned with
  | true =>
    rw [sync_of_poisoned hpoisoned]
    exact ⟨0, rfl, by simp⟩
  | false =>
    -- No fragment is lost in a drain, and none is counted twice.
    have hconsumed := Draft.drain_consumed engine.backend engine.draft queue.items
    refine ⟨(engine.draft.drain engine.backend queue.items).accepted, ?_⟩
    cases herror : (engine.draft.drain engine.backend queue.items).error <;>
      simpa [sync, hpoisoned, herror, Queue.size] using hconsumed

/-- **What a compilation counts**: the call of the backend. -/
theorem compile_tally (engine : Engine) (tally : Tally) :
    (engine.compile tally).2 =
      { tally with compile := tally.compile + engine.asksToCompile.toNat } := by
  unfold compile asksToCompile
  cases engine.backend with
  | none => rfl
  | some backend =>
    cases engine.draft.poisoned with
    | true => rfl
    | false => cases hcompile : backend.compile engine.draft <;> simp [hcompile]

/-- **What an execution counts**: the two calls of the backend, as far as it comes to them. -/
theorem execute_tally (engine : Engine) (ledger : Ledger) :
    (engine.execute ledger).2.tally = { ledger.tally with
      compile := ledger.tally.compile + engine.asksToCompileFirst.toNat
      execute := ledger.tally.execute + engine.asksToExecute.toNat } := by
  have hcompile := engine.compile_tally ledger.tally
  unfold execute asksToCompileFirst asksToExecute
  rw [← engine.compile_fst ledger.tally]
  cases hbackend : engine.backend with
  | none => cases engine.draft.output <;> simp [asksToCompile, compile, hbackend, Except.isOk,
      Except.toBool]
  | some backend =>
    cases engine.draft.output with
    | none => simp
    | some target =>
      rcases hquery : engine.compile ledger.tally with ⟨outcome, tally⟩
      obtain rfl : tally = _ := by simpa [hquery] using hcompile
      cases outcome with
      | error error => simp [Except.isOk, Except.toBool]
      | ok query =>
        cases hexecute : backend.execute query <;> simp [Except.isOk, Except.toBool, hexecute]

end Engine

/-- **A sync on a bench is counted exactly if it is begun**, which it is unless there is no queue or
the draft is poisoned. -/
theorem Bench.sync_tally (bench : Bench) :
    isBegun bench.sync.1 = (bench.attached.isSome && !bench.engine.draft.poisoned) ∧
      bench.sync.2.ledger.tally.sync =
        bench.ledger.tally.sync + (isBegun bench.sync.1).toNat := by
  unfold sync
  cases hattached : bench.attached with
  | none => exact ⟨rfl, rfl⟩
  | some number =>
    obtain ⟨_, htally, -⟩ := bench.engine.sync_tally (bench.queue number) bench.ledger.tally
    exact ⟨bench.engine.isBegun_sync _ _, congrArg Tally.sync htally⟩

/-! ## Backends that fail -/

/-- The backend that fails to compile, whatever the draft. -/
def Backend.failsToCompile (cause : BackendError) (backend : Backend) : Backend :=
  { backend with compile := fun _ => .error cause }

/-- The backend that fails to execute, whatever the query. -/
def Backend.failsToExecute (cause : BackendError) (backend : Backend) : Backend :=
  { backend with execute := fun _ => .error cause }

namespace Engine

/-- A sync keeps the backend. -/
theorem sync_backend (engine : Engine) (queue : Queue Fragment) (tally : Tally) :
    (engine.sync queue tally).engine.backend = engine.backend := by
  unfold sync
  split <;> rfl

/-- The engine with another backend, if there is one. -/
def withBackend (engine : Engine) (change : Backend → Backend) : Engine :=
  { engine with backend := engine.backend.map change }

theorem asksToCompile_iff (engine : Engine) (tally : Tally) :
    engine.asksToCompile = true ↔ ∀ cause,
      ((engine.withBackend (.failsToCompile cause)).compile tally).1 =
        .error (.backend cause) := by
  have : Nonempty BackendError := ⟨.store⟩
  obtain ⟨draft, transactional, backend⟩ := engine
  cases backend <;> cases hpoisoned : draft.poisoned <;>
    simp [asksToCompile, withBackend, Backend.failsToCompile, compile, hpoisoned]

theorem asksToCompileFirst_iff (engine : Engine) (ledger : Ledger) :
    engine.asksToCompileFirst = true ↔ ∀ cause,
      ((engine.withBackend (.failsToCompile cause)).execute ledger).1 =
        .error (.backend cause) := by
  have : Nonempty BackendError := ⟨.store⟩
  obtain ⟨draft, transactional, backend⟩ := engine
  cases backend <;> cases hpoisoned : draft.poisoned <;> cases houtput : draft.output <;>
    simp [asksToCompileFirst, asksToCompile, withBackend, Backend.failsToCompile, execute, compile,
      hpoisoned, houtput]

/-- A compilation does not ask a backend to execute. -/
theorem compile_failsToExecute (engine : Engine) (cause : BackendError) (tally : Tally) :
    (engine.withBackend (.failsToExecute cause)).compile tally = engine.compile tally := by
  obtain ⟨draft, transactional, - | backend⟩ := engine <;> rfl

/-- What is told of one cause is not told of every cause. -/
theorem not_compile_failsToExecute (engine : Engine) (tally : Tally) :
    ¬ ∀ cause, ((engine.withBackend (.failsToExecute cause)).compile tally).1 =
      .error (.backend cause) := by
  intro h
  simp only [compile_failsToExecute] at h
  exact absurd ((h .store).symm.trans (h .plan)) (by decide)

theorem asksToExecute_iff (engine : Engine) (ledger : Ledger) :
    engine.asksToExecute = true ↔ ∀ cause,
      ((engine.withBackend (.failsToExecute cause)).execute ledger).1 =
        .error (.backend cause) := by
  have : Nonempty BackendError := ⟨.store⟩
  cases hbackend : engine.backend with
  | none =>
    simp [asksToExecute, compile, execute, withBackend, hbackend, Except.isOk, Except.toBool]
  | some backend =>
    cases houtput : engine.draft.output with
    | none => simp [asksToExecute, execute, withBackend, hbackend, houtput]
    | some target =>
      have hexecute (cause : BackendError) :
          ((engine.withBackend (.failsToExecute cause)).execute ledger).1 =
            (engine.compile {}).1.bind fun _ => .error (.backend cause) := by
        have hfails : (engine.withBackend (.failsToExecute cause)).backend =
          some (.failsToExecute cause backend) := congrArg (Option.map _) hbackend
        have hkept : (engine.withBackend (.failsToExecute cause)).draft.output = some target :=
          houtput
        rw [← engine.compile_fst ledger.tally]
        unfold execute
        rw [hfails, hkept, compile_failsToExecute]
        rcases engine.compile ledger.tally with ⟨_ | _, _⟩ <;> rfl
      have hnot := engine.not_compile_failsToExecute {}
      simp only [compile_failsToExecute] at hnot
      simp only [asksToExecute, houtput, Option.isSome_some, Bool.true_and, hexecute]
      cases hcompile : (engine.compile {}).1 with
      | error error => simpa [hcompile, Except.isOk, Except.toBool, Except.bind] using hnot
      | ok query => simp [Except.isOk, Except.toBool, Except.bind]

end Engine

namespace Session

/-! ## What happens in a session -/

/-- **What happened in a session**, in numbers. -/
structure Events where
  /-- Fragments that were pushed. -/
  pushed : Nat := 0
  /-- Syncs that were not refused up front. -/
  begun : Nat := 0
  /-- Syncs that failed on a fragment. -/
  failed : Nat := 0
  /-- Drafts that a backend was asked to compile. -/
  compiled : Nat := 0
  /-- Queries that a backend was asked to execute. -/
  executed : Nat := 0
  /-- Fragments that were dropped with a query that failed. -/
  dropped : Nat := 0
  /-- Fragments that were taken out of the queue by hand. -/
  takenOut : Nat := 0
  deriving DecidableEq

/-- What happened before and then. -/
def Events.add (first second : Events) : Events where
  pushed := first.pushed + second.pushed
  begun := first.begun + second.begun
  failed := first.failed + second.failed
  compiled := first.compiled + second.compiled
  executed := first.executed + second.executed
  dropped := first.dropped + second.dropped
  takenOut := first.takenOut + second.takenOut

/-- The outcome of the sync that a command begins with, if it does. -/
def syncOutcome? (session : Session) : Command → Option (Except QueryError Unit)
  | .sync | .compile | .execute => session.engine.map fun _ => session.sync.1
  | _ => none

/-- Whether a sync succeeds, and the engine behind it asks for something. -/
def asksBehindSync (session : Session) (asks : Engine → Bool) : Bool :=
  session.sync.1.isOk && session.sync.2.engine.any asks

theorem asksBehindSync_false (session : Session) :
    session.asksBehindSync (fun _ => false) = false := by
  simp [asksBehindSync]

/-- Whether a command asks a backend to compile. -/
def compiles (session : Session) : Command → Bool
  | .compile => session.asksBehindSync Engine.asksToCompile
  | .execute => session.asksBehindSync Engine.asksToCompileFirst
  | _ => false

/-- Whether a command asks a backend to execute. -/
def executes (session : Session) : Command → Bool
  | .execute => session.asksBehindSync Engine.asksToExecute
  | _ => false

/-- How many fragments a query drops when it fails: those that its sync has left in the queue and
that do not wait any more. -/
def leftOut {α : Type} (session : Session) (finished : Except QueryError α × Session) : Nat :=
  match finished.1 with
  | .error _ => session.sync.2.queue.size - finished.2.queue.size
  | .ok _ => 0

/-- **What happens with a command.** -/
def events (session : Session) (command : Command) : Events where
  pushed := match command with
    | .push _ => 1
    | _ => 0
  begun := ((session.syncOutcome? command).any isBegun).toNat
  failed := ((session.syncOutcome? command).any failsOnFragment).toNat
  compiled := (session.compiles command).toNat
  executed := (session.executes command).toNat
  dropped := match command with
    | .compile => session.leftOut session.compile
    | .execute => session.leftOut session.execute
    | _ => 0
  takenOut := match command with
    | .drain => session.queue.size
    | _ => 0

/-- **What happens with commands**, one after the other. -/
def eventsOf (session : Session) : List Command → Events
  | [] => {}
  | command :: commands =>
    (session.events command).add ((session.step command).2.eventsOf commands)

/-! ## The accounts -/

variable {session next last : Session}

/-- **The tally and the queue have changed by what happened.** -/
structure Accounts (session next : Session) (events : Events) : Prop where
  fragments : session.ledger.tally.accepted + session.ledger.tally.rejected + session.queue.size +
      events.pushed =
    next.ledger.tally.accepted + next.ledger.tally.rejected + next.queue.size + events.dropped +
      events.takenOut
  rejected : next.ledger.tally.rejected = session.ledger.tally.rejected + events.failed
  sync : next.ledger.tally.sync = session.ledger.tally.sync + events.begun
  compile : next.ledger.tally.compile = session.ledger.tally.compile + events.compiled
  execute : next.ledger.tally.execute = session.ledger.tally.execute + events.executed

theorem Accounts.refl (session : Session) : session.Accounts session {} :=
  ⟨rfl, rfl, rfl, rfl, rfl⟩

theorem Accounts.trans {first second : Events} (hfirst : session.Accounts next first)
    (hsecond : next.Accounts last second) : session.Accounts last (first.add second) where
  fragments := by
    have h := hfirst.fragments
    have h' := hsecond.fragments
    simp only [Events.add]
    omega
  rejected := by rw [hsecond.rejected, hfirst.rejected, Nat.add_assoc]; rfl
  sync := by rw [hsecond.sync, hfirst.sync, Nat.add_assoc]; rfl
  compile := by rw [hsecond.compile, hfirst.compile, Nat.add_assoc]; rfl
  execute := by rw [hsecond.execute, hfirst.execute, Nat.add_assoc]; rfl

/-- A session without an engine refuses to sync. -/
theorem sync_of_engine_none (h : session.engine = none) :
    session.sync = (.error .layerMissing, session) := by
  simp [sync, h]

/-- What a sync of a session comes to. -/
theorem sync_outcome {engine : Engine} (h : session.engine = some engine) :
    isBegun session.sync.1 = !engine.draft.poisoned ∧
      (failsOnFragment session.sync.1 = true ↔ engine.draft.poisoned = false ∧
        engine.draft.RefusesIn engine.backend session.queue.items) := by
  simp only [sync, h]
  exact ⟨engine.isBegun_sync _ _, Engine.failsOnFragment_sync_iff⟩

/-- **The accounts of a sync.** -/
theorem accounts_sync (session : Session) : session.Accounts session.sync.2
    { begun := ((session.engine.map fun _ => session.sync.1).any isBegun).toNat
      failed := ((session.engine.map fun _ => session.sync.1).any failsOnFragment).toNat } := by
  cases hengine : session.engine with
  | none =>
    rw [sync_of_engine_none hengine]
    exact .refl session
  | some engine =>
    obtain ⟨accepted, htally, hqueue⟩ := engine.sync_tally session.queue session.ledger.tally
    constructor <;> simp [sync, hengine, htally]
    omega

/-- **The accounts of a query behind its sync.** What is left in the queue is dropped when the query
fails, and what its use counts is what the engine asks for. -/
theorem accounts_use {α : Type} (session : Session)
    {use : Engine → Ledger → Except QueryError α × Ledger} {compiles executes : Engine → Bool}
    (huse : ∀ engine ledger, (use engine ledger).2.tally = { ledger.tally with
      compile := ledger.tally.compile + (compiles engine).toNat
      execute := ledger.tally.execute + (executes engine).toNat }) :
    session.sync.2.Accounts (session.finish use).2
      { compiled := (session.asksBehindSync compiles).toNat
        executed := (session.asksBehindSync executes).toNat
        dropped := session.leftOut (session.finish use) } := by
  cases hengine : session.engine with
  | none =>
    have hfinish : session.finish use = (.error .layerMissing, session) := by
      simp [finish, hengine]
    constructor <;> simp [hfinish, sync_of_engine_none hengine, asksBehindSync, leftOut,
      Except.isOk, Except.toBool]
  | some engine =>
    rcases hsync : engine.sync session.queue session.ledger.tally with
      ⟨outcome, behind, queue, tally⟩
    have hsynced :
        session.sync = (outcome, ⟨queue, some behind, { session.ledger with tally }⟩) := by
      simp only [sync, hengine, hsync]
    cases outcome with
    | error error =>
      -- The engine is not used.
      have hfinish : session.finish use =
          (.error error, ⟨.empty, some behind.reset, { session.ledger with tally }⟩) := by
        simp only [finish, hengine, hsync, Queue.clear]
      constructor <;> simp [hfinish, hsynced, asksBehindSync, leftOut, Except.isOk, Except.toBool,
        Queue.empty, Queue.size]
    | ok _ =>
      have hledger := huse behind { session.ledger with tally }
      rcases hanswer : use behind { session.ledger with tally } with ⟨answer, ledger⟩
      rw [hanswer] at hledger
      dsimp only at hledger
      cases answer with
      | error error =>
        have hfinish :
            session.finish use = (.error error, ⟨.empty, some behind.reset, ledger⟩) := by
          simp only [finish, hengine, hsync, hanswer, Queue.clear]
        constructor <;> simp [hfinish, hsynced, asksBehindSync, leftOut, hledger, Except.isOk,
          Except.toBool, Queue.empty, Queue.size]
      | ok a =>
        have hfinish : session.finish use = (.ok a, ⟨queue, some behind.reset, ledger⟩) := by
          simp only [finish, hengine, hsync, hanswer]
        constructor <;> simp [hfinish, hsynced, asksBehindSync, leftOut, hledger, Except.isOk,
          Except.toBool]

/-- **The accounts of a query that is finished.** -/
theorem accounts_finish {α : Type} (session : Session)
    {use : Engine → Ledger → Except QueryError α × Ledger} {compiles executes : Engine → Bool}
    (huse : ∀ engine ledger, (use engine ledger).2.tally = { ledger.tally with
      compile := ledger.tally.compile + (compiles engine).toNat
      execute := ledger.tally.execute + (executes engine).toNat }) :
    session.Accounts (session.finish use).2
      { begun := ((session.engine.map fun _ => session.sync.1).any isBegun).toNat
        failed := ((session.engine.map fun _ => session.sync.1).any failsOnFragment).toNat
        compiled := (session.asksBehindSync compiles).toNat
        executed := (session.asksBehindSync executes).toNat
        dropped := session.leftOut (session.finish use) } := by
  simpa [Events.add] using session.accounts_sync.trans (session.accounts_use huse)

/-- **The accounts of a command.** -/
theorem accounts_step {command : Command} (h : command ≠ .tally true) :
    session.Accounts (session.step command).2 (session.events command) := by
  cases command with
  | push fragment =>
    constructor <;> simp [step, push, events, syncOutcome?, compiles, executes, Queue.size]
    omega
  | attach backend =>
    constructor <;> simp [step, attach, events, syncOutcome?, compiles, executes]
  | transaction =>
    constructor <;> cases hengine : session.engine <;>
      simp [step, transaction, events, syncOutcome?, compiles, executes, hengine]
  | sync => exact session.accounts_sync
  | compile =>
    -- A compilation executes nothing.
    have hfinish := @accounts_finish _ session (fun engine ledger =>
      ((engine.compile ledger.tally).1, { ledger with tally := (engine.compile ledger.tally).2 }))
      Engine.asksToCompile (fun _ => false)
      fun engine ledger => by simp [engine.compile_tally ledger.tally]
    rw [asksBehindSync_false] at hfinish
    exact hfinish
  | execute =>
    exact accounts_finish session fun engine ledger => engine.execute_tally ledger
  | drain =>
    constructor <;> simp [step, events, syncOutcome?, compiles, executes, Queue.size, Queue.clear,
      Queue.empty]
  | rows target => constructor <;> simp [step, events, syncOutcome?, compiles, executes]
  | take target => constructor <;> simp [step, events, syncOutcome?, compiles, executes]
  | tally restart =>
    cases restart with
    | true => exact absurd rfl h
    | false => constructor <;> simp [step, events, syncOutcome?, compiles, executes]

/-- **The accounts of a run.** -/
theorem accounts_carryOut {commands : List Command}
    (h : ∀ command ∈ commands, command ≠ .tally true) :
    session.Accounts (session.carryOut commands) (session.eventsOf commands) := by
  induction commands generalizing session with
  | nil => exact .refl session
  | cons command commands ih =>
    rw [List.forall_mem_cons] at h
    exact (accounts_step h.1).trans (ih h.2)

/-! ## Counters of 64 bits -/

/-- **What the tally counts happened at most so often**, each by itself. -/
structure Events.AtMost (events : Events) (count : Nat) : Prop where
  pushed : events.pushed ≤ count
  begun : events.begun ≤ count
  compiled : events.compiled ≤ count
  executed : events.executed ≤ count

theorem events_atMost (session : Session) (command : Command) :
    (session.events command).AtMost 1 where
  pushed := by cases command <;> simp [events]
  begun := Bool.toNat_le _
  compiled := Bool.toNat_le _
  executed := Bool.toNat_le _

theorem eventsOf_atMost (session : Session) (commands : List Command) :
    (session.eventsOf commands).AtMost commands.length := by
  induction commands generalizing session with
  | nil => exact ⟨Nat.le_refl _, Nat.le_refl _, Nat.le_refl _, Nat.le_refl _⟩
  | cons command commands ih =>
    obtain ⟨hpushed, hbegun, hcompiled, hexecuted⟩ := session.events_atMost command
    obtain ⟨hpushed', hbegun', hcompiled', hexecuted'⟩ := ih (session.step command).2
    constructor <;> simp only [eventsOf, Events.add, List.length_cons] <;> omega

/-- **Counters of 64 bits do not wrap** in a run from an empty tally, as long as there are fewer than
`2 ^ 64` commands and fragments that waited before. -/
theorem carryOut_tally_lt (hzero : session.ledger.tally = {}) {commands : List Command}
    (hkept : ∀ command ∈ commands, command ≠ .tally true)
    (hcount : session.queue.size + commands.length < UInt64.size) :
    let tally := (session.carryOut commands).ledger.tally
    tally.sync < UInt64.size ∧ tally.compile < UInt64.size ∧ tally.execute < UInt64.size ∧
      tally.accepted < UInt64.size ∧ tally.rejected < UInt64.size := by
  obtain ⟨hpushed, hbegun, hcompiled, hexecuted⟩ := session.eventsOf_atMost commands
  have haccounts : session.Accounts _ _ := accounts_carryOut hkept
  obtain ⟨hfragments, -, hsync, hcompile, hexecute⟩ := haccounts
  simp only [hzero] at hfragments hsync hcompile hexecute
  intro tally
  refine ⟨?_, ?_, ?_, ?_, ?_⟩ <;> dsimp only [tally] <;> omega

/-! ## Calls of a backend -/

/-- The session with another backend in its engine, if there is one. -/
def withBackend (session : Session) (change : Backend → Backend) : Session :=
  { session with engine := session.engine.map (·.withBackend change) }

/-- The failure that an answer tells. -/
def Answer.error? : Answer → Option QueryError
  | outcome (.error error) | compiled (.error error) => some error
  | _ => none

/-- No sync fails on account of a call of the backend. -/
theorem sync_ne_backend (session : Session) (cause : BackendError) :
    session.sync.1 ≠ .error (.backend cause) := by
  intro h
  cases hengine : session.engine with
  | none => simp [sync, hengine] at h
  | some engine =>
    simp only [sync, hengine] at h
    by_cases hpoisoned : engine.draft.poisoned = true
    · rw [Engine.sync_of_poisoned hpoisoned] at h
      cases h
    · simp only [Engine.sync, if_neg hpoisoned] at h
      split at h
      · rename_i error herror
        obtain rfl := Except.error.inj h
        rcases Draft.drain_error herror with hcause | hcause <;> cases hcause
      · cases h

/-- A sync asks a backend for its screen only. -/
theorem sync_withBackend {change : Backend → Backend}
    (htext : ∀ backend, (change backend).flagsText = backend.flagsText)
    (hfield : ∀ backend, (change backend).flagsField = backend.flagsField) :
    (session.withBackend change).sync = (session.sync.1, session.sync.2.withBackend change) := by
  obtain ⟨queue, engine, ledger⟩ := session
  rcases engine with - | ⟨draft, transactional, - | backend⟩
  · rfl
  · simp only [sync, withBackend, Option.map_some, Engine.withBackend, Option.map_none, Engine.sync]
    split <;> rfl
  · have hkept := Engine.sync_backend ⟨draft, transactional, some backend⟩ queue ledger.tally
    simp only [sync, withBackend, Option.map_some, Engine.withBackend, hkept]
    rw [Engine.sync_of_screen (htext backend).symm (hfield backend).symm
      ⟨draft, transactional, some backend⟩ queue ledger.tally]

theorem asksBehindSync_iff {asks : Engine → Bool} :
    session.asksBehindSync asks = true ↔
      ∃ engine, session.sync.1 = .ok () ∧ session.sync.2.engine = some engine ∧
        asks engine = true := by
  unfold asksBehindSync
  cases session.sync.1 <;> cases session.sync.2.engine <;> simp [Except.isOk, Except.toBool]

/-- A query fails on account of a call of the backend in its use, behind a sync that succeeds. -/
theorem finish_eq_backend_iff {α : Type} {use : Engine → Ledger → Except QueryError α × Ledger}
    {cause : BackendError} :
    (session.finish use).1 = .error (.backend cause) ↔
      ∃ engine, session.sync.1 = .ok () ∧ session.sync.2.engine = some engine ∧
        (use engine session.sync.2.ledger).1 = .error (.backend cause) := by
  have hsync := session.sync_ne_backend cause
  obtain ⟨queue, engine, ledger⟩ := session
  cases engine with
  | none => simp [finish, sync]
  | some engine =>
    cases houtcome : (engine.sync queue ledger.tally).outcome with
    | error error => simpa [finish, sync, houtcome] using hsync
    | ok _ => simp [finish, sync, houtcome]

/-- **A query asks a backend behind its sync exactly if it tells of every failure** that the use
of an engine tells of when the engine asks. -/
theorem asksBehindSync_iff_finish {α : Type} (change : BackendError → Backend → Backend)
    (htext : ∀ cause backend, (change cause backend).flagsText = backend.flagsText)
    (hfield : ∀ cause backend, (change cause backend).flagsField = backend.flagsField)
    {use : Engine → Ledger → Except QueryError α × Ledger} {asks : Engine → Bool}
    (hasks : ∀ engine ledger, asks engine = true ↔
      ∀ cause, (use (engine.withBackend (change cause)) ledger).1 = .error (.backend cause)) :
    session.asksBehindSync asks = true ↔
      ∀ cause, ((session.withBackend (change cause)).finish use).1 = .error (.backend cause) := by
  have hfinish (cause : BackendError) :
      ((session.withBackend (change cause)).finish use).1 = .error (.backend cause) ↔
        ∃ engine, session.sync.1 = .ok () ∧ session.sync.2.engine = some engine ∧
          (use (engine.withBackend (change cause)) session.sync.2.ledger).1 =
            .error (.backend cause) := by
    rw [finish_eq_backend_iff, sync_withBackend (htext cause) (hfield cause)]
    simp [withBackend]
  simp only [asksBehindSync_iff, hfinish, hasks _ session.sync.2.ledger]
  constructor
  · rintro ⟨engine, hsync, hengine, hall⟩ cause
    exact ⟨engine, hsync, hengine, hall cause⟩
  · intro h
    obtain ⟨engine, hsync, hengine, -⟩ := h .store
    refine ⟨engine, hsync, hengine, fun cause => ?_⟩
    obtain ⟨other, -, hother, htold⟩ := h cause
    obtain rfl := Option.some.inj (hengine.symm.trans hother)
    exact htold

theorem error?_outcome {outcome : Except QueryError Unit} {error : QueryError} :
    (Answer.outcome outcome).error? = some error ↔ outcome = .error error := by
  cases outcome <;> simp [Answer.error?]

theorem error?_compiled {outcome : Except QueryError CompiledQuery} {error : QueryError} :
    (Answer.compiled outcome).error? = some error ↔ outcome = .error error := by
  cases outcome <;> simp [Answer.error?]

/-- A command that is not a query tells of no failure of a backend. -/
theorem step_ne_backend {command : Command} (hcompile : command ≠ .compile)
    (hexecute : command ≠ .execute) (cause : BackendError) :
    (session.step command).1.error? ≠ some (.backend cause) := by
  cases command with
  | compile => exact absurd rfl hcompile
  | execute => exact absurd rfl hexecute
  | sync => exact fun h => session.sync_ne_backend cause (error?_outcome.mp h)
  | transaction =>
    cases hengine : session.engine <;> simp [step, transaction, hengine, Answer.error?]
  | push _ | attach _ | drain | rows _ | take _ | tally _ => simp [step, Answer.error?]

/-- **A command asks a backend to compile exactly if it tells of every failure to do so.** -/
theorem compiles_iff {command : Command} :
    session.compiles command = true ↔ ∀ cause,
      ((session.withBackend (.failsToCompile cause)).step command).1.error? =
        some (.backend cause) := by
  cases command with
  | compile =>
    simp only [step, error?_compiled]
    exact asksBehindSync_iff_finish .failsToCompile (fun _ _ => rfl) (fun _ _ => rfl)
      fun engine ledger => engine.asksToCompile_iff ledger.tally
  | execute =>
    simp only [step, error?_outcome]
    exact asksBehindSync_iff_finish .failsToCompile (fun _ _ => rfl) (fun _ _ => rfl)
      Engine.asksToCompileFirst_iff
  | _ =>
    exact iff_of_false (by simp [compiles])
      fun h => step_ne_backend (by simp) (by simp) .store (h _)

/-- **A command asks a backend to execute exactly if it tells of every failure to do so.** -/
theorem executes_iff {command : Command} :
    session.executes command = true ↔ ∀ cause,
      ((session.withBackend (.failsToExecute cause)).step command).1.error? =
        some (.backend cause) := by
  cases command with
  | compile =>
    have hnone : session.executes .compile = session.asksBehindSync fun _ => false :=
      (asksBehindSync_false session).symm
    simp only [hnone, step, error?_compiled]
    exact asksBehindSync_iff_finish .failsToExecute (fun _ _ => rfl) (fun _ _ => rfl)
      fun engine ledger =>
        iff_of_false Bool.false_ne_true (engine.not_compile_failsToExecute ledger.tally)
  | execute =>
    simp only [step, error?_outcome]
    exact asksBehindSync_iff_finish .failsToExecute (fun _ _ => rfl) (fun _ _ => rfl)
      Engine.asksToExecute_iff
  | _ =>
    exact iff_of_false (by simp [executes])
      fun h => step_ne_backend (by simp) (by simp) .store (h _)

/-- **Every fragment and every call is accounted for** when a session has been through commands that
leave the tally alone.

* What waited or was pushed was accepted or rejected, or dropped with a query that failed, or taken
  out by hand, or it still waits. There were as many rejections as syncs that failed on a fragment.
* The syncs that were begun are counted, and so are the calls of a backend.
* A sync is begun unless the draft is poisoned, and fails on a fragment that the draft refuses.
* A command asks a backend to compile, or to execute, exactly if it tells of every failure of a
  backend to do so.
* Of an engine that is worked by hand the syncs are counted in the same way; without a queue they
  are not begun.

The counts are whole numbers. Counters of 64 bits show them as long as the run is not too long, by
`carryOut_tally_lt`. -/
theorem run_accounts {session : Session} (hzero : session.ledger.tally = {})
    {commands : List Command} (hkept : ∀ command ∈ commands, command ≠ .tally true) :
    let last := session.carryOut commands
    let tally := last.ledger.tally
    let events := session.eventsOf commands
    session.queue.size + events.pushed =
        tally.accepted + tally.rejected + events.dropped + events.takenOut + last.queue.size ∧
      tally.rejected = events.failed ∧ tally.sync = events.begun ∧
      tally.compile = events.compiled ∧ tally.execute = events.executed ∧
      (∀ (before : Session) (engine : Engine), before.engine = some engine →
        isBegun before.sync.1 = !engine.draft.poisoned ∧
        (failsOnFragment before.sync.1 = true ↔
          engine.draft.poisoned = false ∧
            engine.draft.RefusesIn engine.backend before.queue.items)) ∧
      (∀ (before : Session) (command : Command),
        (before.compiles command = true ↔ ∀ cause,
          ((before.withBackend (.failsToCompile cause)).step command).1.error? =
            some (.backend cause)) ∧
        (before.executes command = true ↔ ∀ cause,
          ((before.withBackend (.failsToExecute cause)).step command).1.error? =
            some (.backend cause))) ∧
      ∀ bench : Bench,
        isBegun bench.sync.1 = (bench.attached.isSome && !bench.engine.draft.poisoned) ∧
          bench.sync.2.ledger.tally.sync =
            bench.ledger.tally.sync + (isBegun bench.sync.1).toNat := by
  have haccounts : session.Accounts _ _ := accounts_carryOut hkept
  obtain ⟨hfragments, hrejected, hsync, hcompile, hexecute⟩ := haccounts
  simp only [hzero, Nat.zero_add] at hfragments hrejected hsync hcompile hexecute
  refine ⟨?_, hrejected, hsync, hcompile, hexecute, fun _ _ => sync_outcome,
    fun _ _ => ⟨compiles_iff, executes_iff⟩, Bench.sync_tally⟩
  omega

/-- A query, one that is rejected with a target behind it, one that cannot be compiled, and one
that waits for another engine. -/
theorem run_accounts_three_queries :
    let backend := Plan.backend {} (.ofList [("users", [.ofList [("id", .int 1)]])])
    let target : Target := ⟨"users", 0⟩
    let commands : List Command := [.attach (some backend), .push (.find target), .execute,
      .push (.raw .start "id = 2;"), .push (.find target), .execute,
      .push (.misc .null), .push (.find target), .compile, .push (.find target), .attach none]
    let last := ({} : Session).carryOut commands
    (∀ command ∈ commands, command ≠ .tally true) ∧
      ({} : Session).eventsOf commands = {
        pushed := 6, begun := 3, failed := 1, compiled := 2, executed := 1, dropped := 1 } ∧
      last.queue.size = 1 ∧
      6 = last.ledger.tally.accepted + last.ledger.tally.rejected + 1 + last.queue.size ∧
      last.ledger.tally.rejected = 1 ∧ last.ledger.tally.sync = 3 ∧
      last.ledger.tally.compile = 2 ∧ last.ledger.tally.execute = 1 := by
  intro backend target commands last
  have hkept : ∀ command ∈ commands, command ≠ .tally true := by simp [commands]
  have hevents : ({} : Session).eventsOf commands = {
      pushed := 6, begun := 3, failed := 1, compiled := 2, executed := 1, dropped := 1 } := by
    decide +kernel
  obtain ⟨hfragments, hrejected, hsync, hcompile, hexecute, -⟩ :=
    @run_accounts {} rfl commands hkept
  rw [hevents] at hfragments hrejected hsync hcompile hexecute
  have hempty : (Queue.empty : Queue Fragment).size = 0 := rfl
  have hwaits : last.queue.size = 1 := by decide +kernel
  simp only [hempty, Nat.zero_add, Nat.add_zero] at hfragments
  refine ⟨hkept, hevents, hwaits, ?_⟩
  dsimp only [last]
  exact ⟨hfragments, hrejected, hsync, hcompile, hexecute⟩

end Session

end ScreenedQuery
