import ScreenedQuery.Plan.Evaluation
import ScreenedQuery.Proofs.Engine.Sync
import ScreenedQuery.Session

/-!
# What is left of a rejected query

A sync that refuses a fragment leaves those behind it in the queue. The engine is poisoned and does
not look at them, and when the query is finished they are dropped. A new engine is not poisoned: if
one is attached while they wait, the next sync takes them for the start of a query.

## Main definitions

* `Session.carryOut`: a session after commands
* `Session.revives`: whether commands let a new engine at what waits
* `Session.Shelves`: what waits makes no difference to the engine and the ledger

## Main results

* `Session.fate`: what each command does with what waits
* `Session.agrees_carryOut`: what waits is shelved, unless a new engine is let at it
* `Session.exists_accepted_lt`: a new engine takes what waits
* `Session.remains_shelved_iff`: when the rest of a rejected query is never looked at
* `Session.remains_executed`: the target of a query is used without its rejected filter
-/

namespace ScreenedQuery

/-! ## Fragments that are taken -/

/-- A draft accepts every payload. -/
theorem Draft.drain_replicate_misc (backend : Option Backend) (draft : Draft) (n : Nat) :
    let drained := draft.drain backend (List.replicate n (.misc .null))
    drained.error = none ∧ drained.accepted = n := by
  induction n generalizing draft with
  | zero => exact ⟨rfl, rfl⟩
  | succ n ih =>
    rw [List.replicate_succ, drain]
    have haccept : draft.accept backend (.misc .null) = .ok { draft.push (.misc .null) with
        current := .misc, previous := .misc } := rfl
    rw [haccept]
    exact ⟨(ih _).1, congrArg (· + 1) (ih _).2⟩

namespace Engine

variable {engine : Engine}

/-- A compilation accepts no fragments. -/
theorem accepted_compile (engine : Engine) (tally : Tally) :
    (engine.compile tally).2.accepted = tally.accepted := by
  unfold compile
  split
  · rfl
  · split
    · rfl
    · split <;> rfl

/-- An execution accepts no fragments. -/
theorem accepted_execute (engine : Engine) (ledger : Ledger) :
    (engine.execute ledger).2.tally.accepted = ledger.tally.accepted := by
  have hcompile := engine.accepted_compile ledger.tally
  unfold execute
  split
  · rfl
  · rfl
  · split
    · rename_i hquery
      rwa [hquery] at hcompile
    · rename_i hquery
      rw [hquery] at hcompile
      split <;> exact hcompile

/-- A sync accepts no more fragments than there are. -/
theorem accepted_sync_le (engine : Engine) (queue : Queue Fragment) (tally : Tally) :
    (engine.sync queue tally).tally.accepted ≤ tally.accepted + queue.items.length := by
  unfold sync
  split
  · exact Nat.le_add_right _ _
  · have hconsumed := Draft.drain_consumed engine.backend engine.draft queue.items
    dsimp only at hconsumed ⊢
    omega

/-- A sync accepts all payloads in front of other fragments. -/
theorem le_accepted_sync (h : engine.draft.poisoned = false) {queue : Queue Fragment} {n : Nat}
    {fragments : List Fragment}
    (hqueue : queue.items = List.replicate n (.misc .null) ++ fragments) (tally : Tally) :
    tally.accepted + n ≤ (engine.sync queue tally).tally.accepted := by
  obtain ⟨herror, haccepted⟩ := Draft.drain_replicate_misc engine.backend engine.draft n
  simp only [sync, h, hqueue, Draft.drain_append, herror, haccepted]
  simp

end Engine

namespace Session

/-! ## Commands and what waits -/

/-- A session after commands. -/
def carryOut (session : Session) : List Command → Session
  | [] => session
  | command :: commands => carryOut (session.step command).2 commands

/-- **Whether commands let a new engine at what waits**: one is attached, and asked to sync, compile
or execute, before the queue is emptied. `attached` tells whether one has been attached already; as
long as none has, a query that is finished fails, and the queue is emptied with it. -/
def revives (attached : Bool) : List Command → Bool
  | [] => false
  | .attach _ :: commands => revives true commands
  | .sync :: commands => attached || revives attached commands
  | .compile :: _ | .execute :: _ => attached
  | .drain :: _ => false
  | _ :: commands => revives attached commands

/-- Two sessions with the same engine and the same ledger, whatever waits in them. -/
structure Agrees (a b : Session) : Prop where
  engine : a.engine = b.engine
  ledger : a.ledger = b.ledger

/-- **What waits makes no difference**: whichever fragments stand in the queue instead, the engine
and the ledger are the same after each of the commands. -/
def Shelves (session : Session) (commands : List Command) : Prop :=
  ∀ queue first, first <+: commands →
    Agrees (session.carryOut first) ({ session with queue }.carryOut first)

/-- A session with an engine, the draft of which is poisoned or not. -/
def HasEngine (session : Session) (poisoned : Bool) : Prop :=
  ∃ engine, session.engine = some engine ∧ engine.draft.poisoned = poisoned

variable {session a b : Session}

theorem Agrees.refl (session : Session) : Agrees session session := ⟨rfl, rfl⟩

theorem HasEngine.congr {poisoned : Bool} (h : HasEngine a poisoned) (hagrees : Agrees a b) :
    HasEngine b poisoned := by
  obtain ⟨engine, hengine, hpoisoned⟩ := h
  exact ⟨engine, hagrees.engine ▸ hengine, hpoisoned⟩

/-! ## Steps -/

/-- A poisoned engine refuses a sync, and nothing changes. -/
theorem sync_of_poisoned (h : HasEngine session true) :
    session.sync = (.error .draftPoisoned, session) := by
  obtain ⟨engine, hengine, hpoisoned⟩ := h
  obtain ⟨queue, _, ledger⟩ := session
  obtain rfl : _ = some engine := hengine
  simp only [sync, Engine.sync_of_poisoned hpoisoned]

/-- A query of a poisoned engine fails, and what waits is dropped. -/
theorem finish_of_poisoned {α : Type} (h : HasEngine session true)
    (use : Engine → Ledger → Except QueryError α × Ledger) :
    session.finish use =
      (.error .draftPoisoned,
        { session with queue := .empty, engine := session.engine.map Engine.reset }) := by
  obtain ⟨engine, hengine, hpoisoned⟩ := h
  obtain ⟨queue, _, ledger⟩ := session
  obtain rfl : _ = some engine := hengine
  simp only [finish, Engine.sync_of_poisoned hpoisoned]
  rfl

/-- A query that is finished accepts what its sync does. -/
theorem accepted_finish {α : Type} {engine : Engine} (h : session.engine = some engine)
    {use : Engine → Ledger → Except QueryError α × Ledger}
    (huse : ∀ engine ledger, (use engine ledger).2.tally.accepted = ledger.tally.accepted) :
    (session.finish use).2.ledger.tally.accepted =
      (engine.sync session.queue session.ledger.tally).tally.accepted := by
  simp only [finish, h]
  cases (engine.sync session.queue session.ledger.tally).outcome with
  | error error => rfl
  | ok _ => exact huse _ _

/-- **What a command does with what waits** in two sessions that differ in nothing else. -/
inductive Fate (attached : Bool) (command : Command) (a b : Session) : Prop
  /-- It goes on waiting, and at most one fragment is added to it. -/
  | waits (next : Bool) (more : List Fragment)
      (agrees : Agrees (a.step command).2 (b.step command).2)
      (engine : HasEngine (a.step command).2 !next)
      (first : (a.step command).2.queue.items = a.queue.items ++ more)
      (second : (b.step command).2.queue.items = b.queue.items ++ more)
      (one : more.length ≤ 1)
      (goesOn : ∀ commands, revives attached (command :: commands) = revives next commands)
  /-- It is dropped, and the sessions do not differ any more. -/
  | dropped (same : (a.step command).2 = (b.step command).2)
      (settled : ∀ commands, revives attached (command :: commands) = false)
  /-- A sync of an engine that is not poisoned looks at it. -/
  | taken (sound : attached = true)
      (accepted : ∀ (session : Session) (engine : Engine), session.engine = some engine →
        (session.step command).2.ledger.tally.accepted =
          (engine.sync session.queue session.ledger.tally).tally.accepted)
      (settled : ∀ commands, revives attached (command :: commands) = true)

/-- A command that touches neither the engine nor the queue. -/
theorem Fate.of_ledger {attached : Bool} {command : Command} (h : Agrees a b)
    (hengine : HasEngine a !attached) (change : Ledger → Ledger)
    (hstep : ∀ session : Session, (session.step command).2 =
      { session with ledger := change session.ledger })
    (hgoesOn : ∀ commands, revives attached (command :: commands) = revives attached commands) :
    Fate attached command a b := by
  obtain ⟨engine, hsome, hpoisoned⟩ := hengine
  refine .waits attached [] ?_ ?_ ?_ ?_ (Nat.zero_le _) hgoesOn
  · rw [hstep, hstep]
    exact ⟨h.engine, congrArg change h.ledger⟩
  · rw [hstep]
    exact ⟨engine, hsome, hpoisoned⟩
  · rw [hstep, List.append_nil]
  · rw [hstep, List.append_nil]

/-- A query that is finished drops what waits, or its sync takes it. -/
theorem Fate.of_finish {α : Type} {attached : Bool} {command : Command} (h : Agrees a b)
    (hengine : HasEngine a !attached) (use : Engine → Ledger → Except QueryError α × Ledger)
    (huse : ∀ engine ledger, (use engine ledger).2.tally.accepted = ledger.tally.accepted)
    (hstep : ∀ session : Session, (session.step command).2 = (session.finish use).2)
    (hrevives : ∀ commands, revives attached (command :: commands) = attached) :
    Fate attached command a b := by
  cases attached with
  | true =>
    refine .taken rfl (fun session engine hsome => ?_) hrevives
    rw [hstep, accepted_finish hsome huse]
  | false =>
    refine .dropped ?_ hrevives
    rw [hstep, hstep, finish_of_poisoned hengine, finish_of_poisoned (hengine.congr h), h.engine,
      h.ledger]

/-- **What each command does with what waits.** -/
theorem fate {attached : Bool} (h : Agrees a b) (hengine : HasEngine a !attached)
    (command : Command) : Fate attached command a b := by
  cases command with
  | push fragment =>
    exact .waits attached [fragment] ⟨h.engine, h.ledger⟩ hengine rfl rfl
      (Nat.le_refl _) fun _ => rfl
  | attach backend =>
    exact .waits true [] ⟨rfl, h.ledger⟩ ⟨{ backend }, rfl, rfl⟩
      (List.append_nil _).symm (List.append_nil _).symm (Nat.zero_le _) fun _ => rfl
  | transaction =>
    obtain ⟨engine, hsome, hpoisoned⟩ := hengine
    have hsomeB : b.engine = some engine := h.engine ▸ hsome
    refine .waits attached [] ?_ ⟨engine.startTransaction, ?_, hpoisoned⟩ ?_ ?_
      (Nat.zero_le _) fun _ => rfl
    all_goals simp [step, transaction, hsome, hsomeB]
    exact ⟨rfl, h.ledger⟩
  | sync =>
    cases attached with
    | true =>
      refine .taken rfl (fun session engine hsome => ?_) fun _ => rfl
      simp [step, sync, hsome]
    | false =>
      refine .waits false [] ?_ ?_ ?_ ?_ (Nat.zero_le _) fun _ => rfl
      all_goals simp only [step, sync_of_poisoned hengine, sync_of_poisoned (hengine.congr h),
        List.append_nil]
      · exact h
      · exact hengine
  | compile =>
    exact .of_finish h hengine (fun engine ledger => ((engine.compile ledger.tally).1,
      { ledger with tally := (engine.compile ledger.tally).2 }))
      (fun engine ledger => engine.accepted_compile ledger.tally) (fun _ => rfl) fun _ => rfl
  | execute =>
    exact .of_finish h hengine _ Engine.accepted_execute (fun _ => rfl) fun _ => rfl
  | drain =>
    refine .dropped ?_ fun _ => rfl
    simp [step, h.engine, h.ledger, Queue.clear]
  | rows target => exact .of_ledger h hengine id (fun _ => rfl) fun _ => rfl
  | take target =>
    exact .of_ledger h hengine (fun ledger =>
      { ledger with buffers := (ledger.buffers.take target.buffer).2 }) (fun _ => rfl) fun _ => rfl
  | tally restart =>
    cases restart with
    | true =>
      exact .of_ledger h hengine (fun ledger => { ledger with tally := {} }) (fun _ => rfl)
        fun _ => rfl
    | false => exact .of_ledger h hengine id (fun _ => rfl) fun _ => rfl

/-! ## Runs -/

/-- **What waits is shelved**, unless a new engine is let at it. -/
theorem agrees_carryOut {commands : List Command} {attached : Bool} (h : Agrees a b)
    (hengine : HasEngine a !attached) (hrevives : revives attached commands = false) :
    ∀ first, first <+: commands → Agrees (a.carryOut first) (b.carryOut first) := by
  induction commands generalizing a b attached with
  | nil =>
    intro first hfirst
    rw [List.prefix_nil.mp hfirst]
    exact h
  | cons command commands ih =>
    intro first hfirst
    cases first with
    | nil => exact h
    | cons head first =>
      obtain ⟨rfl, hrest⟩ := List.cons_prefix_cons.mp hfirst
      simp only [carryOut]
      cases fate h hengine head with
      | waits next more hagrees hnext _ _ _ hgoesOn =>
        exact ih hagrees hnext (hgoesOn commands ▸ hrevives) first hrest
      | dropped hsame _ =>
        rw [hsame]
        exact .refl _
      | taken _ _ hsettled => exact absurd hrevives (by simp [hsettled])

/-- **A new engine takes what waits**: it makes a difference whether many payloads stand in front
of the queue. -/
theorem exists_accepted_lt {commands : List Command} {attached : Bool} (h : Agrees a b)
    (hengine : HasEngine a !attached) (hrevives : revives attached commands = true) {n : Nat}
    {fragments : List Fragment}
    (hqueue : b.queue.items = List.replicate n (.misc .null) ++ fragments)
    (hn : a.queue.items.length + commands.length < n) :
    ∃ first, first <+: commands ∧
      (a.carryOut first).ledger.tally.accepted < (b.carryOut first).ledger.tally.accepted := by
  induction commands generalizing a b attached fragments with
  | nil => exact nomatch hrevives
  | cons command commands ih =>
    rw [List.length_cons] at hn
    cases fate h hengine command with
    | waits next more hagrees hnext hfirst hsecond hone hgoesOn =>
      have hlength : (a.step command).2.queue.items.length + commands.length < n := by
        rw [hfirst, List.length_append]
        omega
      have hpayloads : (b.step command).2.queue.items =
          List.replicate n (.misc .null) ++ (fragments ++ more) := by
        rw [hsecond, hqueue, List.append_assoc]
      obtain ⟨first, hprefix, hlt⟩ :=
        ih hagrees hnext (hgoesOn commands ▸ hrevives) hpayloads hlength
      exact ⟨command :: first, List.cons_prefix_cons.mpr ⟨rfl, hprefix⟩, hlt⟩
    | dropped _ hsettled => exact absurd hrevives (by simp [hsettled])
    | taken hsound haccepted _ =>
      subst hsound
      obtain ⟨engine, hsome, hpoisoned⟩ := hengine
      refine ⟨[command], List.cons_prefix_cons.mpr ⟨rfl, List.nil_prefix⟩, ?_⟩
      -- The one sync accepts no more than what waits, the other one at least the payloads.
      have hle := engine.accepted_sync_le a.queue a.ledger.tally
      have hge := Engine.le_accepted_sync hpoisoned hqueue a.ledger.tally
      have hb := haccepted b engine (h.engine ▸ hsome)
      rw [← h.ledger] at hb
      simp only [carryOut, haccepted a engine hsome, hb]
      omega

/-- A query that fails when it is finished leaves nothing that waits. -/
theorem queue_finish_of_error {α : Type} {error : QueryError} (hengine : session.engine.isSome)
    {use : Engine → Ledger → Except QueryError α × Ledger}
    (hfails : (session.finish use).1 = .error error) : (session.finish use).2.queue = .empty := by
  obtain ⟨engine, hsome⟩ := Option.isSome_iff_exists.mp hengine
  simp only [finish, hsome] at hfails ⊢
  rw [hfails]
  rfl

/-- **When the rest of a rejected query is never looked at.** Let a sync of a session with an engine
fail. Whatever is asked of the session then, what waits makes no difference to any draft, to the
rows and to the tally, exactly if no new engine is let at it before the query is finished or the
queue is emptied. And when a query fails while it is finished, nothing is left of it. -/
theorem remains_shelved_iff {session : Session} (hengine : session.engine.isSome) :
    (∀ error, session.sync.1 = .error error → ∀ commands : List Command,
        session.sync.2.Shelves commands ↔ revives false commands = false) ∧
      (∀ error, session.compile.1 = .error error → session.compile.2.queue = .empty) ∧
      ∀ error, session.execute.1 = .error error → session.execute.2.queue = .empty := by
  obtain ⟨engine, hsome⟩ := Option.isSome_iff_exists.mp hengine
  refine ⟨fun error hfails commands => ?_, fun _ => queue_finish_of_error hengine,
    fun _ => queue_finish_of_error hengine⟩
  have hpoisoned : HasEngine session.sync.2 true := by
    simp only [sync, hsome] at hfails ⊢
    exact ⟨_, rfl, Engine.poisoned_of_sync_eq_error hfails⟩
  generalize session.sync.2 = left at hpoisoned
  constructor
  · intro hshelves
    by_contra hrevives
    -- Payloads enough in the place of what waits would all be accepted.
    obtain ⟨first, hfirst, hlt⟩ := @exists_accepted_lt left
      { left with queue := ⟨List.replicate (left.queue.items.length + commands.length + 1)
        (.misc .null)⟩ } commands false ⟨rfl, rfl⟩ hpoisoned (by simpa using hrevives) _ []
      (List.append_nil _).symm (Nat.lt_succ_self _)
    rw [(hshelves _ first hfirst).ledger] at hlt
    exact Nat.lt_irrefl _ hlt
  · intro hrevives queue
    exact @agrees_carryOut left { left with queue } commands false ⟨rfl, rfl⟩ hpoisoned hrevives

/-- Behind a raw filter that is flagged a target waits, and nothing comes of it when the query is
executed, nor of the queries that follow. -/
theorem remains_shelved_target :
    let session := ({} : Session).carryOut [.attach (some (Plan.backend {} .empty)),
      .push (.raw .start "id = 1;"), .push (.find ⟨"users", 0⟩)]
    session.engine.isSome ∧ session.sync.1 = .error (.injection (.raw .start) "id = 1;") ∧
      session.sync.2.queue.items.length = 1 ∧
      session.sync.2.Shelves [.sync, .execute, .attach none, .sync] := by
  intro session
  have hfails : session.sync.1 = .error (.injection (.raw .start) "id = 1;") := rfl
  exact ⟨rfl, hfails, rfl, ((remains_shelved_iff rfl).1 _ hfails _).mpr rfl⟩

/-- **The rest of a rejected query can be executed**: a new engine takes the target that waits, and
delivers all records, since the filter of the query was rejected. -/
theorem remains_executed :
    let record : Record := .ofList [("id", .int 1)]
    let backend := Plan.backend {} (.ofList [("users", [record])])
    let session := ({} : Session).carryOut [.attach (some backend),
      .push (.raw .start "id = 2;"), .push (.find ⟨"users", 0⟩)]
    let commands : List Command := [.attach (some backend), .execute]
    session.sync.1 = .error (.injection (.raw .start) "id = 2;") ∧
      (session.sync.2.carryOut commands).ledger.buffers.rows 0 = [record] ∧
      ¬ session.sync.2.Shelves commands := by
  intro record backend session commands
  have hrows : (session.sync.2.carryOut commands).ledger.buffers.rows 0 = [record] := by
    decide +revert +kernel
  refine ⟨rfl, hrows, fun hshelves => ?_⟩
  have hledger := (hshelves .empty commands (List.prefix_refl _)).ledger
  rw [hledger] at hrows
  exact absurd hrows (List.cons_ne_nil record []).symm

end Session

end ScreenedQuery
