import ScreenedQuery.Engine.Basic

/-!
# What an execution delivers

An execution delivers the rows of its query to the buffer of one target, or nothing. What it
delivers is decided by the engine alone, whatever stands in the buffers and in the tally.

## Main definitions

* `Engine.delivery`: the target and the rows of an execution

## Main results

* `Engine.compile_fst`: what is compiled does not depend on the tally
* `Engine.execute_eq`: an execution, by what it delivers
* `Engine.execute_rows`: rows stand behind those that were there
-/

namespace ScreenedQuery.Engine

/-- **What an execution delivers**: rows and the target that they go to, or why there are none. -/
def delivery (engine : Engine) : Except QueryError (Target × List Record) :=
  match engine.backend, engine.draft.output with
  | none, _ => .error .backendMissing
  | some _, none => .error .targetMissing
  | some backend, some target =>
    match (engine.compile {}).1 with
    | .error error => .error error
    | .ok query =>
      match backend.execute query with
      | .error cause => .error (.backend cause)
      | .ok rows => .ok (target, rows)

/-- What is compiled does not depend on the tally. -/
theorem compile_fst (engine : Engine) (tally : Tally) :
    (engine.compile tally).1 = (engine.compile {}).1 := by
  unfold compile
  cases engine.backend with
  | none => rfl
  | some backend =>
    dsimp only
    split
    · rfl
    · cases backend.compile engine.draft <;> rfl

/-- A draft that is compiled, and the rows of its query. -/
theorem delivery_eq_ok {engine : Engine} {backend : Backend} {target : Target}
    {query : CompiledQuery} {rows : List Record} (hbackend : engine.backend = some backend)
    (houtput : engine.draft.output = some target) (hpoisoned : engine.draft.poisoned = false)
    (hcompile : backend.compile engine.draft = .ok query)
    (hexecute : backend.execute { query with transactional := engine.transactional } = .ok rows) :
    engine.delivery = .ok (target, rows) := by
  have hquery : (engine.compile {}).1 =
      .ok { query with transactional := engine.transactional } := by
    simp [compile, hbackend, hpoisoned, hcompile]
  simp only [delivery, hbackend, houtput, hquery, hexecute]

/-- What is delivered for a draft that is compiled. -/
theorem delivery_of_compile {engine : Engine} {backend : Backend} {target : Target} {tally : Tally}
    {query : CompiledQuery} (hbackend : engine.backend = some backend)
    (houtput : engine.draft.output = some target) (hquery : (engine.compile tally).1 = .ok query) :
    engine.delivery =
      match backend.execute query with
      | .error cause => .error (.backend cause)
      | .ok rows => .ok (target, rows) := by
  rw [compile_fst] at hquery
  simp only [delivery, hbackend, houtput, hquery]

/-- **An execution, by what it delivers**: it succeeds when there is something to deliver, and the
rows are added to the buffer of their target. -/
theorem execute_eq (engine : Engine) (ledger : Ledger) :
    (engine.execute ledger).1 = engine.delivery.map (fun _ => ()) ∧
      (engine.execute ledger).2.buffers =
        match engine.delivery with
        | .error _ => ledger.buffers
        | .ok (target, rows) => ledger.buffers.deliver target.buffer rows := by
  unfold execute delivery
  rw [← engine.compile_fst ledger.tally]
  -- The checks of an execution, one after the other; each that fails is the answer.
  cases engine.backend with
  | none => exact ⟨rfl, rfl⟩
  | some backend =>
    cases engine.draft.output with
    | none => exact ⟨rfl, rfl⟩
    | some target =>
      obtain ⟨outcome, tally⟩ := engine.compile ledger.tally
      cases outcome with
      | error error => exact ⟨rfl, rfl⟩
      | ok query =>
        dsimp only
        cases backend.execute query with
        | error cause => exact ⟨rfl, rfl⟩
        | ok rows => exact ⟨rfl, rfl⟩

/-- What an execution does that delivers rows. -/
theorem execute_of_delivery {engine : Engine} {target : Target} {rows : List Record}
    (h : engine.delivery = .ok (target, rows)) (ledger : Ledger) :
    (engine.execute ledger).1 = .ok () ∧
      (engine.execute ledger).2.buffers = ledger.buffers.deliver target.buffer rows := by
  obtain ⟨houtcome, hbuffers⟩ := engine.execute_eq ledger
  rw [h] at houtcome hbuffers
  exact ⟨houtcome, hbuffers⟩

/-- What an execution does that fails. -/
theorem execute_of_delivery_error {engine : Engine} {error : QueryError}
    (h : engine.delivery = .error error) (ledger : Ledger) :
    (engine.execute ledger).1 = .error error ∧
      (engine.execute ledger).2.buffers = ledger.buffers := by
  obtain ⟨houtcome, hbuffers⟩ := engine.execute_eq ledger
  rw [h] at houtcome hbuffers
  exact ⟨houtcome, hbuffers⟩

/-- The rows of an execution stand behind those that were there, in whichever buffer. -/
theorem execute_rows (engine : Engine) (ledger : Ledger) (buffer : Nat) :
    (engine.execute ledger).2.buffers.rows buffer =
      ledger.buffers.rows buffer ++ (engine.execute {}).2.buffers.rows buffer := by
  rw [(engine.execute_eq ledger).2, (engine.execute_eq {}).2]
  cases engine.delivery with
  | error error => simp [Buffers.empty]
  | ok delivered =>
    obtain ⟨target, rows⟩ := delivered
    by_cases hbuffer : buffer = target.buffer
    · simp [hbuffer, Buffers.empty]
    · rw [Buffers.rows_deliver_ne _ _ hbuffer, Buffers.rows_deliver_ne _ _ hbuffer]
      simp [Buffers.empty]

end ScreenedQuery.Engine
