import ScreenedQuery.Engine.Basic
import ScreenedQuery.Proofs.Draft.Drain
import ScreenedQuery.Proofs.Draft.History

/-!
# Syncs by the rules

A sync into an empty draft succeeds when every fragment meets the rules behind those before it, and
fails with the cause of the first one that does not. The clauses are those of the fragments before.

## Main results

* `Engine.sync_of_admitsAll`, `Engine.sync_of_refuses`: the two outcomes of a sync
* `Engine.sync_behind`: fragments can be synced in portions
* `Engine.admitsAll_of_sync_eq_ok`: what a sync that succeeds says of its fragments
* `Engine.poisoned_of_sync_eq_error`: a sync that fails leaves a poisoned draft
* `Engine.sync_decides_rules`: success, the error and the clauses, from the rules
-/

namespace ScreenedQuery.Engine

variable {engine : Engine} {before fragments : List Fragment}

/-- **A sync of fragments that the rules admit** takes all of them. -/
theorem sync_eq_of_admitsAll (hdraft : engine.draft = .collect before)
    (h : Draft.AdmitsAll engine.backend before fragments) (tally : Tally) :
    engine.sync ⟨fragments⟩ tally =
      ⟨.ok (), { engine with draft := .collect (before ++ fragments) }, .empty,
        { tally with sync := tally.sync + 1, accepted := tally.accepted + fragments.length }⟩ := by
  simp [sync, hdraft, Draft.drain_of_admitsAll h, Queue.empty]

/-- **A sync of fragments one of which is the first that the rules refuse** leaves those behind it
in the queue. -/
theorem sync_eq_of_refuses (hdraft : engine.draft = .collect before) {middle : List Fragment}
    {fragment : Fragment} {error : QueryError}
    (hall : Draft.AdmitsAll engine.backend before middle)
    (hrefuses : Draft.Refuses engine.backend (before ++ middle) fragment error)
    (after : List Fragment) (tally : Tally) :
    engine.sync ⟨middle ++ fragment :: after⟩ tally =
      ⟨.error error, { engine with draft := (Draft.collect (before ++ middle)).refuse fragment },
        ⟨after⟩, { tally with
          sync := tally.sync + 1
          accepted := tally.accepted + middle.length
          rejected := tally.rejected + 1 }⟩ := by
  simp [sync, hdraft, Draft.drain_of_refuses hall hrefuses]

/-- A sync of fragments that the rules admit behind those of the draft. -/
theorem sync_of_admitsAll (hdraft : engine.draft = .collect before)
    (h : Draft.AdmitsAll engine.backend before fragments) (tally : Tally) :
    (engine.sync ⟨fragments⟩ tally).outcome = .ok () ∧
      (engine.sync ⟨fragments⟩ tally).engine =
        { engine with draft := .collect (before ++ fragments) } := by
  simp [sync_eq_of_admitsAll hdraft h]

/-- A sync of fragments one of which is the first that the rules refuse. -/
theorem sync_of_refuses (hdraft : engine.draft = .collect before) {middle : List Fragment}
    {fragment : Fragment} {error : QueryError}
    (hall : Draft.AdmitsAll engine.backend before middle)
    (hrefuses : Draft.Refuses engine.backend (before ++ middle) fragment error)
    (after : List Fragment) (tally : Tally) :
    (engine.sync ⟨middle ++ fragment :: after⟩ tally).outcome = .error error ∧
      (engine.sync ⟨middle ++ fragment :: after⟩ tally).engine =
        { engine with draft := (Draft.collect (before ++ middle)).refuse fragment } := by
  simp [sync_eq_of_refuses hdraft hall hrefuses]

/-- **A sync goes on where the one before it stopped**: behind fragments that were admitted it does
what one sync of all of them does. -/
theorem sync_behind (hdraft : engine.draft = .collect before)
    (hbefore : Draft.AdmitsAll engine.backend [] before) (waiting : List Fragment)
    (tally : Tally) :
    ∃ behind, engine.sync ⟨waiting⟩ tally =
      { { engine with draft := .empty }.sync ⟨before ++ waiting⟩ {} with tally := behind } := by
  have hfirst := Draft.drain_of_admitsAll hbefore
  rw [Draft.collect_nil, List.nil_append] at hfirst
  refine ⟨(engine.sync ⟨waiting⟩ tally).tally, ?_⟩
  -- Neither draft is poisoned, and a drain can be done in portions.
  have hfresh : Draft.empty.poisoned = false := rfl
  simp [sync, hdraft, hfresh, Draft.drain_append, hfirst]

/-- All fragments of a sync that succeeds are admitted. -/
theorem admitsAll_of_sync_eq_ok (hdraft : engine.draft = .collect before) {tally : Tally}
    (h : (engine.sync ⟨fragments⟩ tally).outcome = .ok ()) :
    Draft.AdmitsAll engine.backend before fragments := by
  rcases Draft.admitsAll_or_refuses engine.backend before fragments with
    hall | ⟨middle, fragment, after, error, rfl, hall, hrefuses⟩
  · exact hall
  · rw [(sync_of_refuses hdraft hall hrefuses after tally).1] at h
    exact nomatch h

/-- **A sync that fails leaves a poisoned draft**, whichever draft it found. -/
theorem poisoned_of_sync_eq_error {queue : Queue Fragment} {tally : Tally} {error : QueryError}
    (h : (engine.sync queue tally).outcome = .error error) :
    (engine.sync queue tally).engine.draft.poisoned = true := by
  have hdrain (draft : Draft) (fragments : List Fragment) {cause : QueryError}
      (h : (draft.drain engine.backend fragments).error = some cause) :
      (draft.drain engine.backend fragments).draft.poisoned = true := by
    induction fragments generalizing draft with
    | nil => exact nomatch h
    | cons fragment rest ih =>
      rw [Draft.drain] at h ⊢
      cases haccept : draft.accept engine.backend fragment with
      | error error => rfl
      | ok draft =>
        rw [haccept] at h
        exact ih draft h
  by_cases hpoisoned : engine.draft.poisoned = true
  · rwa [sync_of_poisoned hpoisoned]
  · cases herror : (engine.draft.drain engine.backend queue.items).error with
    | none => simp [sync, hpoisoned, herror] at h
    | some cause =>
      rw [sync, if_neg hpoisoned]
      exact hdrain _ _ herror

/-- **The rules decide a sync.** On an empty draft it succeeds exactly when every fragment is
admitted behind those before it. It fails with an error exactly when this is the cause of the first
fragment that is not. The clauses are those of all fragments, or of those before the refused one,
and the draft is poisoned exactly when a fragment was refused. -/
theorem sync_decides_rules (engine : Engine) (fragments : List Fragment) (tally : Tally) :
    let synced := { engine with draft := .empty }.sync ⟨fragments⟩ tally
    (synced.outcome = .ok () ↔ Draft.AdmitsAll engine.backend [] fragments) ∧
      (∀ error, synced.outcome = .error error ↔
        ∃ before fragment after, fragments = before ++ fragment :: after ∧
          Draft.AdmitsAll engine.backend [] before ∧
          Draft.Refuses engine.backend before fragment error) ∧
      (Draft.AdmitsAll engine.backend [] fragments →
        synced.engine.draft.operators = (Draft.expansion fragments).map (·.2) ∧
          synced.engine.draft.poisoned = false) ∧
      ∀ before fragment after error, fragments = before ++ fragment :: after →
        Draft.AdmitsAll engine.backend [] before →
        Draft.Refuses engine.backend before fragment error →
        synced.engine.draft.operators = (Draft.expansion before).map (·.2) ∧
          synced.engine.draft.poisoned = true := by
  intro synced
  have hdraft : ({ engine with draft := .empty } : Engine).draft = .collect [] := rfl
  -- The rules leave two cases, and in each the outcome and the draft are known.
  have hok : Draft.AdmitsAll engine.backend [] fragments →
      synced.outcome = .ok () ∧
        synced.engine = { engine with draft := .collect fragments } := fun hall =>
    sync_of_admitsAll hdraft hall tally
  have herror : ∀ before fragment after error, fragments = before ++ fragment :: after →
      Draft.AdmitsAll engine.backend [] before →
      Draft.Refuses engine.backend before fragment error →
      synced.outcome = .error error ∧
        synced.engine = { engine with draft := (Draft.collect before).refuse fragment } := by
    rintro before fragment after error rfl hall hrefuses
    exact sync_of_refuses hdraft hall hrefuses after tally
  refine ⟨⟨admitsAll_of_sync_eq_ok hdraft, fun hall => (hok hall).1⟩,
    fun error => ⟨fun houtcome => ?_, ?_⟩, fun hall => ?_,
    fun before fragment after error hsplit hall hrefuses => ?_⟩
  · -- A sync that fails has a first refused fragment, and this is the cause.
    rcases Draft.admitsAll_or_refuses engine.backend [] fragments with
      hall | ⟨before, fragment, after, cause, hsplit, hall, hrefuses⟩
    · rw [(hok hall).1] at houtcome
      exact nomatch houtcome
    · rw [(herror before fragment after cause hsplit hall hrefuses).1] at houtcome
      obtain rfl := Except.error.inj houtcome
      exact ⟨before, fragment, after, hsplit, hall, hrefuses⟩
  · rintro ⟨before, fragment, after, hsplit, hall, hrefuses⟩
    exact (herror before fragment after error hsplit hall hrefuses).1
  · rw [(hok hall).2]
    exact ⟨Draft.collect_operators fragments, Draft.collect_poisoned fragments⟩
  · rw [(herror before fragment after error hsplit hall hrefuses).2]
    exact ⟨Draft.collect_operators before, rfl⟩

end ScreenedQuery.Engine
