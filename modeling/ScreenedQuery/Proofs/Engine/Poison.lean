import ScreenedQuery.Plan.Evaluation
import ScreenedQuery.Proofs.Engine.Run
import ScreenedQuery.Proofs.Engine.Sync

/-!
# Poisoned drafts

A sync that refuses a fragment poisons the draft. From then on the engine does nothing until it is
reset: whatever else it is asked, the draft stays as it is, the queues keep their fragments, and
every sync, compilation and execution is refused without the backend being asked.

## Main definitions

* `QueryError.isUpFront`: the causes for which a sync is refused before it takes a fragment
* `Bench.Command.spares`: the commands that neither reset the engine nor take anything away
* `Bench.Keeps`: what one bench has of another
* `Bench.FailedLast`: the last sync since the last reset that was not refused up front has failed

## Main results

* `Bench.sync_cases`: what a sync can come to
* `Bench.step_of_poisoned`: a poisoned engine refuses, and nothing changes
* `Bench.keeps_run`: a poisoned bench keeps what it has
* `Bench.poisoned_run_iff`: when the draft of a run is poisoned
* `Bench.run_poisoned_absorbing`: a sync that fails is final until a reset
-/

namespace ScreenedQuery

/-- **The causes for which a sync is refused before it takes a fragment.** -/
def QueryError.isUpFront : QueryError → Bool
  | queueDetached | draftPoisoned => true
  | _ => false

/-- What the rules refuse is not refused up front. -/
theorem Draft.Refuses.isUpFront_eq_false {backend : Option Backend} {before : List Fragment}
    {fragment : Fragment} {error : QueryError} (h : Refuses backend before fragment error) :
    error.isUpFront = false := by
  cases h <;> rfl

namespace Bench

variable {bench : Bench}

/-! ## What a sync can come to -/

theorem queue_setQueue (bench : Bench) (number other : Nat) (queue : Queue Fragment) :
    (bench.setQueue number queue).queue other =
      if other = number ∧ number < bench.queues.length then queue else bench.queue other := by
  unfold setQueue Bench.queue
  dsimp only
  rw [List.getElem?_set]
  by_cases hnumber : number = other
  · subst hnumber
    by_cases hlt : number < bench.queues.length <;> simp [hlt]
  · simp [hnumber, Ne.symm hnumber]

/-- A queue that is put back changes nothing. -/
theorem setQueue_queue (bench : Bench) (number : Nat) :
    bench.setQueue number (bench.queue number) = bench := by
  have hqueues : bench.queues.set number (bench.queue number) = bench.queues := by
    refine List.ext_getElem? fun i => ?_
    rw [List.getElem?_set]
    split
    · subst number
      split
      · rename_i hlt
        simp [Bench.queue, hlt]
      · rename_i hge
        rw [List.getElem?_eq_none (Nat.le_of_not_lt hge)]
    · rfl
  rw [setQueue, hqueues]

/-- **A poisoned draft refuses a sync**, and nothing changes. -/
theorem sync_of_poisoned (h : bench.engine.draft.poisoned = true) :
    bench.sync = (.error (if bench.attached.isSome then .draftPoisoned else .queueDetached),
      bench) := by
  unfold sync
  cases hattached : bench.attached with
  | none => rfl
  | some number =>
    obtain ⟨engine, queues, attached, ledger⟩ := bench
    obtain rfl : attached = some number := hattached
    dsimp only at h ⊢
    rw [Engine.sync_of_poisoned h, setQueue_queue]
    rfl

/-- **What a sync can come to.** For want of a queue or because the draft is poisoned it is refused
up front, and nothing changes; or it takes all that waits, or it refuses a fragment and poisons the
draft. -/
theorem sync_cases {history : List Fragment} (h : Holds history bench.engine.draft) :
    bench.sync = (.error .queueDetached, bench) ∨
      (bench.engine.draft.poisoned = true ∧ bench.sync = (.error .draftPoisoned, bench)) ∨
      (bench.sync.1 = .ok () ∧ bench.sync.2.engine.draft.poisoned = false) ∨
      ∃ error, error.isUpFront = false ∧ bench.sync.1 = .error error ∧
        bench.sync.2.engine.draft.poisoned = true := by
  cases hattached : bench.attached with
  | none => exact .inl (by simp [sync, hattached])
  | some number =>
    cases hpoisoned : bench.engine.draft.poisoned with
    | true => exact .inr (.inl ⟨rfl, by simp [sync_of_poisoned hpoisoned, hattached]⟩)
    | false =>
      have hdraft := h.eq_of_not_poisoned hpoisoned
      simp only [sync, hattached]
      rcases Draft.admitsAll_or_refuses bench.engine.backend history (bench.queue number).items with
        hall | ⟨middle, fragment, after, error, hsplit, hall, hrefuses⟩
      · rw [Engine.sync_eq_of_admitsAll hdraft hall]
        exact .inr (.inr (.inl ⟨rfl, Draft.collect_poisoned _⟩))
      · have hsync := Engine.sync_eq_of_refuses hdraft hall hrefuses after bench.ledger.tally
        rw [← hsplit] at hsync
        rw [hsync]
        exact .inr (.inr (.inr ⟨error, hrefuses.isUpFront_eq_false, rfl, rfl⟩))

/-- A sync that fails for any cause but the lack of a queue leaves a poisoned draft. -/
theorem poisoned_of_sync_eq_error {error : QueryError} (hfails : bench.sync.1 = .error error)
    (hqueue : error ≠ .queueDetached) : bench.sync.2.engine.draft.poisoned = true := by
  unfold sync at hfails ⊢
  cases hattached : bench.attached with
  | none =>
    rw [hattached] at hfails
    exact absurd (Except.error.inj hfails).symm hqueue
  | some number =>
    rw [hattached] at hfails
    exact Engine.poisoned_of_sync_eq_error hfails

/-- A sync that fails for want of a queue changes nothing. -/
theorem sync_of_queueDetached {history : List Fragment} (h : Holds history bench.engine.draft)
    (hfails : bench.sync.1 = .error .queueDetached) : bench.sync.2 = bench := by
  rcases sync_cases h with hsync | ⟨-, hsync⟩ | ⟨hok, -⟩ | ⟨error, hcause, herror, -⟩
  · rw [hsync]
  · rw [hsync]
  · rw [hfails] at hok
    cases hok
  · rw [hfails] at herror
    obtain rfl := Except.error.inj herror
    cases hcause

/-! ## What a poisoned engine refuses -/

/-- **A poisoned engine refuses to sync, to compile and to execute.** None of the causes comes from
a backend, and the bench does not change, so that the tally counts no call of one. -/
theorem step_of_poisoned (h : bench.engine.draft.poisoned = true) :
    (∃ error ∈ [QueryError.queueDetached, .draftPoisoned],
        bench.step .sync = (.synced (.error error), bench)) ∧
      (∃ error ∈ [QueryError.backendMissing, .draftPoisoned],
        bench.step .compile = (.compiled (.error error), bench)) ∧
      ∃ error ∈ [QueryError.backendMissing, .targetMissing, .draftPoisoned],
        bench.step .execute = (.executed (.error error), bench) := by
  refine ⟨?_, ?_, ?_⟩
  · simp only [step, sync_of_poisoned h]
    refine ⟨_, ?_, rfl⟩
    split <;> simp
  · cases hbackend : bench.engine.backend with
    | none => exact ⟨.backendMissing, by simp, by simp [step, Engine.compile, hbackend]⟩
    | some backend => exact ⟨.draftPoisoned, by simp, by simp [step, Engine.compile, hbackend, h]⟩
  · -- The checks of an execution, one after the other.
    cases hbackend : bench.engine.backend with
    | none => exact ⟨.backendMissing, by simp, by simp [step, Engine.execute, hbackend]⟩
    | some backend =>
      cases houtput : bench.engine.draft.output with
      | none =>
        exact ⟨.targetMissing, by simp, by simp [step, Engine.execute, hbackend, houtput]⟩
      | some target =>
        exact ⟨.draftPoisoned, by simp,
          by simp [step, Engine.execute, Engine.compile, hbackend, houtput, h]⟩

/-! ## What a poisoned bench keeps -/

/-- The commands that neither reset the engine nor take fragments or rows away by hand. -/
def Command.spares : Command → Bool
  | reset | clearQueue _ | take _ => false
  | _ => true

/-- **What a bench has kept of an earlier one**: the draft with all its fields, the fragments of
every queue in front of any later ones, and the rows of every buffer. -/
structure Keeps (bench earlier : Bench) : Prop where
  draft : bench.engine.draft = earlier.engine.draft
  queues : ∀ number, (earlier.queue number).items <+: (bench.queue number).items
  buffers : bench.ledger.buffers = earlier.ledger.buffers

theorem Keeps.refl (bench : Bench) : bench.Keeps bench :=
  ⟨rfl, fun _ => List.prefix_refl _, rfl⟩

theorem Keeps.trans {last middle first : Bench} (h : last.Keeps middle) (h' : middle.Keeps first) :
    last.Keeps first :=
  ⟨h.draft.trans h'.draft, fun number => (h'.queues number).trans (h.queues number),
    h.buffers.trans h'.buffers⟩

/-- A push loses no fragment. -/
theorem keeps_push (bench : Bench) (number : Nat) (fragment : Fragment) :
    (bench.step (.push number fragment)).2.Keeps bench := by
  refine ⟨rfl, fun other => ?_, rfl⟩
  simp only [step, queue_setQueue]
  split
  · rename_i h
    rw [h.1]
    exact List.prefix_append _ _
  · exact List.prefix_refl _

/-- A new queue is empty, and the others stay. -/
theorem keeps_newQueue (bench : Bench) : (bench.step .newQueue).2.Keeps bench := by
  refine ⟨rfl, fun number => ?_, rfl⟩
  by_cases h : number < bench.queues.length
  · simp [step, Bench.queue, List.getElem?_append_left h]
  · simp [Bench.queue, List.getElem?_eq_none (Nat.le_of_not_lt h), Queue.empty]

/-- **A poisoned bench keeps what it has**, whichever command is carried out but a few. -/
theorem keeps_step (h : bench.engine.draft.poisoned = true) {command : Command}
    (hspares : command.spares = true) : (bench.step command).2.Keeps bench := by
  obtain ⟨⟨_, -, hsync⟩, ⟨_, -, hcompile⟩, ⟨_, -, hexecute⟩⟩ := step_of_poisoned h
  cases command with
  | push number fragment => exact keeps_push bench number fragment
  | newQueue => exact keeps_newQueue bench
  | sync => rw [hsync]; exact .refl bench
  | compile => rw [hcompile]; exact .refl bench
  | execute => rw [hexecute]; exact .refl bench
  | tally restart => cases restart <;> exact ⟨rfl, fun _ => List.prefix_refl _, rfl⟩
  | reset | clearQueue number | take target => exact nomatch hspares
  | _ => exact ⟨rfl, fun _ => List.prefix_refl _, rfl⟩

/-- **A poisoned bench keeps what it has** through a whole run. -/
theorem keeps_run (h : bench.engine.draft.poisoned = true) {commands : List Command}
    (hspares : ∀ command ∈ commands, command.spares = true) : (bench.run commands).Keeps bench := by
  induction commands using List.reverseRecOn with
  | nil => exact .refl bench
  | append_singleton commands command ih =>
    rw [List.forall_mem_append, List.forall_mem_singleton] at hspares
    have hkeeps := ih hspares.1
    rw [run_append_singleton]
    exact (keeps_step (hkeeps.draft ▸ h) hspares.2).trans hkeeps

/-- Only a reset takes the poison off, whatever else is taken away. -/
theorem draft_step_of_poisoned (h : bench.engine.draft.poisoned = true) {command : Command}
    (hreset : command ≠ .reset) : (bench.step command).2.engine.draft = bench.engine.draft := by
  cases hspares : command.spares with
  | true => exact (keeps_step h hspares).draft
  | false => cases command <;> first | exact absurd rfl hreset | rfl | exact nomatch hspares

theorem poisoned_run (h : bench.engine.draft.poisoned = true) {commands : List Command}
    (hreset : .reset ∉ commands) : (bench.run commands).engine.draft.poisoned = true := by
  induction commands using List.reverseRecOn with
  | nil => exact h
  | append_singleton commands command ih =>
    rw [List.mem_append, List.mem_singleton, not_or] at hreset
    rw [run_append_singleton, draft_step_of_poisoned (ih hreset.1) (Ne.symm hreset.2)]
    exact ih hreset.1

/-! ## When a draft is poisoned -/

/-- **The last sync since the last reset that was not refused up front has failed**, in a run from
the start. -/
def FailedLast (commands : List Command) : Prop :=
  ∃ before after error, commands = before ++ .sync :: after ∧ .reset ∉ after ∧
    (run {} before).sync.1 = .error error ∧ error.isUpFront = false ∧
    ∀ middle rest, after = middle ++ .sync :: rest →
      ∃ cause, cause.isUpFront = true ∧ (run {} (before ++ .sync :: middle)).sync.1 = .error cause

/-- A further command after a failed sync: no reset, and a sync only if it is refused up front. -/
theorem FailedLast.behind {commands : List Command} (h : FailedLast commands) {command : Command}
    (hreset : command ≠ .reset)
    (hsync : command = .sync →
      ∃ cause, cause.isUpFront = true ∧ (run {} commands).sync.1 = .error cause) :
    FailedLast (commands ++ [command]) := by
  obtain ⟨before, after, error, rfl, hafter, hfails, hcause, hrefused⟩ := h
  refine ⟨before, after ++ [command], error, by simp, ?_, hfails, hcause, ?_⟩
  · simpa using ⟨hafter, Ne.symm hreset⟩
  · intro middle rest hsplit
    rcases eq_last_or_before hsplit.symm with ⟨rfl, hlast, -⟩ | ⟨rest, -, hbefore⟩
    · -- The sync in question is the new command.
      exact hsync hlast.symm
    · exact hrefused middle rest hbefore.symm

/-- **When the draft of a run is poisoned**: exactly if the last sync since the last reset that was
not refused up front has failed. -/
theorem poisoned_run_iff (commands : List Command) :
    (run {} commands).engine.draft.poisoned = true ↔ FailedLast commands := by
  constructor
  · -- The induction is on the last command, with the draft before it poisoned or not.
    induction commands using List.reverseRecOn with
    | nil => exact fun h => absurd h Bool.false_ne_true
    | append_singleton commands command ih =>
      intro hlast
      rw [run_append_singleton] at hlast
      by_cases hpoisoned : (run {} commands).engine.draft.poisoned = true
      · -- It was poisoned before: a sync is refused up front, and nothing but a reset mends it.
        refine (ih hpoisoned).behind ?_ fun _ => ?_
        · rintro rfl
          exact absurd hlast Bool.false_ne_true
        · refine ⟨_, ?_, congrArg Prod.fst (sync_of_poisoned hpoisoned)⟩
          split <;> rfl
      · cases command with
        | sync =>
          rcases sync_cases (run_draft {} rfl commands) with
            hsync | ⟨hbefore, -⟩ | ⟨-, hsound⟩ | ⟨error, hcause, hsync, -⟩
          · simp only [step, hsync] at hlast
            exact absurd hlast hpoisoned
          · exact absurd hbefore hpoisoned
          · exact absurd hlast (by simp [step, hsound])
          · exact ⟨commands, [], error, rfl, List.not_mem_nil, hsync, hcause, by simp⟩
        | reset => exact absurd hlast Bool.false_ne_true
        | tally restart => cases restart <;> exact absurd hlast hpoisoned
        | _ => exact absurd hlast hpoisoned
  · rintro ⟨before, after, error, rfl, hafter, hfails, hcause, -⟩
    have hrun : run {} (before ++ .sync :: after) = (run {} before).sync.2.run after := by
      simp [run, step]
    rw [hrun]
    refine poisoned_run (poisoned_of_sync_eq_error hfails ?_) hafter
    rintro rfl
    cases hcause

/-! ## Runs -/

/-- **A sync that fails is final until a reset.** Take any run, and let a sync fail. For want of a
queue it does nothing at all. If it fails for any other cause, or if the draft has been poisoned
before, then whichever commands follow, as long as none resets the engine or takes fragments or rows
away by hand, the draft stays poisoned and all its fields stay as they are, every queue still has
its fragments, and so has every buffer its rows. The next sync, compilation or execution is refused,
for no cause that comes from a backend, and it changes nothing. And the draft of a run is poisoned
exactly if the last sync since the last reset that was not refused up front has failed. -/
theorem run_poisoned_absorbing (before : List Command) :
    let bench := run {} before
    (∀ error, bench.sync.1 = .error error →
      (error = .queueDetached → bench.sync.2 = bench) ∧
      (error ≠ .queueDetached ∨ bench.engine.draft.poisoned = true →
        ∀ commands : List Command, (∀ command ∈ commands, command.spares = true) →
          let failed := bench.sync.2
          let last := failed.run commands
          last.engine.draft.poisoned = true ∧ last.Keeps failed ∧
          (∃ cause ∈ [QueryError.queueDetached, .draftPoisoned],
            last.step .sync = (.synced (.error cause), last)) ∧
          (∃ cause ∈ [QueryError.backendMissing, .draftPoisoned],
            last.step .compile = (.compiled (.error cause), last)) ∧
          ∃ cause ∈ [QueryError.backendMissing, .targetMissing, .draftPoisoned],
            last.step .execute = (.executed (.error cause), last))) ∧
    (bench.engine.draft.poisoned = true ↔ FailedLast before) := by
  intro bench
  refine ⟨fun error hfails => ⟨?_, fun hcause commands hspares => ?_⟩, poisoned_run_iff before⟩
  · rintro rfl
    exact sync_of_queueDetached (run_draft {} rfl before) hfails
  have hfailed : bench.sync.2.engine.draft.poisoned = true := by
    rcases hcause with hqueue | hpoisoned
    · exact poisoned_of_sync_eq_error hfails hqueue
    · rw [sync_of_poisoned hpoisoned]
      exact hpoisoned
  have hkeeps := keeps_run hfailed hspares
  have hlast : (bench.sync.2.run commands).engine.draft.poisoned = true := by
    rw [hkeeps.draft]
    exact hfailed
  exact ⟨hlast, hkeeps, step_of_poisoned hlast⟩

/-- Two filters in a row that both open the chain: the second one is refused, and the target behind
them waits in vain, also for another backend. -/
theorem run_poisoned_absorbing_two_filters :
    let bench := run {} [.attach 0, .push 0 (.structured .start .empty),
      .push 0 (.structured .start .empty), .push 0 (.find ⟨"users", 0⟩)]
    let failed := bench.sync.2
    let last := failed.run
      [.compile, .setBackend (Plan.backend {} .empty), .push 0 (.find ⟨"users", 0⟩), .execute]
    bench.sync.1 = .error (.chainCorrupted (.structured .start) (.structured .start)) ∧
      last.Keeps failed ∧ (last.queue 0).items.length = 2 ∧
      ∃ cause ∈ [QueryError.queueDetached, .draftPoisoned],
        last.step .sync = (.synced (.error cause), last) := by
  intro bench failed last
  have hfails : bench.sync.1 =
      .error (.chainCorrupted (.structured .start) (.structured .start)) := rfl
  obtain ⟨-, hkeeps, hsync, -⟩ := ((run_poisoned_absorbing _).1 _ hfails).2 (.inl (by simp))
    [.compile, .setBackend (Plan.backend {} .empty), .push 0 (.find ⟨"users", 0⟩), .execute]
    (by simp [Command.spares])
  exact ⟨hfails, hkeeps, rfl, hsync⟩

end Bench

end ScreenedQuery
