import ScreenedQuery.Proofs.Engine.Guards
import ScreenedQuery.Proofs.Plan.Description
import ScreenedQuery.Proofs.Sql.Consent
import ScreenedQuery.Proofs.Sql.Rendering

/-!
# Why a draft is not compiled

A draft that is compiled by the backend that has screened it fails for the reasons that the backend
gives for targets, payloads and texts, and for no other: whatever else a compiler guards against,
the rules of drafts exclude.

## Main definitions

* `Sql.AllWritable`: a draft the fields of which can be written, and have values
* `Sql.Fails`: why there is no statement
* `Plan.Fails`: why there is no plan
* `BackendError.IsInternal`: the errors of the other guards
* `Bench.TakenBy`: a run in which one screen was in charge of the fields

## Main results

* `Sql.compile_eq_error_iff`, `Plan.compile_eq_error_iff`: the failures of the two compilers
* `Bench.admits_of_accepted`: the backend of then has admitted what was accepted
* `Bench.TakenBy.allWritable`: fields that were screened can be written, and have values
* `Bench.run_compile_fails`: the failures of a compilation after any run
-/

namespace ScreenedQuery

/-! ## Statements -/

namespace Sql

variable {screen : Screen} {draft : Draft} {error : BackendError}

/-- **A draft all bindings of which can be written.** -/
def AllWritable (screen : Screen) (draft : Draft) : Prop :=
  ∀ clause ∈ draft.clauses, ∀ binding ∈ clause.bindings, Writable screen draft binding

/-- A payload that a statement takes: a text that the screen passes. -/
def PassesPayload (screen : Screen) (payload : Json) : Prop :=
  ∃ text, payload = .string text ∧ screen.flagsText text = false

/-- **Why there is no statement.** The target comes before the payloads, and these before the name
of the table. -/
inductive Fails (screen : Screen) (draft : Draft) : BackendError → Prop
  /-- No target was declared. -/
  | target (missing : draft.output = none) :
      Fails screen draft (.compile "query has no target table")
  /-- A payload is no text, or the screen flags it. -/
  | payload {target : Target} {payload : Json} (output : draft.output = some target)
      (own : .misc payload ∈ draft.clauses) (refused : ¬PassesPayload screen payload) :
      Fails screen draft (.unsupportedClause .misc "expected a screened SQL string")
  /-- The screen flags the name of the target. -/
  | name {target : Target} (output : draft.output = some target)
      (passed : ∀ payload, .misc payload ∈ draft.clauses → PassesPayload screen payload)
      (flagged : screen.flagsField target.name = true) :
      Fails screen draft (.compile ("'" ++ target.name ++ "' is not a valid identifier"))

instance (screen : Screen) : DecidablePred (PassesPayload screen)
  | .string text => decidable_of_iff (screen.flagsText text = false)
      ⟨fun h => ⟨text, rfl, h⟩, fun ⟨_, htext, h⟩ => Json.string.inj htext ▸ h⟩
  | .null | .bool _ | .integer _ | .real _ | .array _ | .object _ | .unreadable => isFalse nofun

/-- How a clause fails. -/
def failure? (screen : Screen) : Clause → Option BackendError
  | .misc payload =>
    if PassesPayload screen payload then none
    else some (.unsupportedClause .misc "expected a screened SQL string")
  | _ => none

/-- The clauses that fail, and how. -/
theorem failure?_eq_some_iff {clause : Clause} : failure? screen clause = some error ↔
    ∃ payload, clause = .misc payload ∧ ¬PassesPayload screen payload ∧
      error = .unsupportedClause .misc "expected a screened SQL string" := by
  cases clause with
  | misc payload => simp [failure?, eq_comm (a := error)]
  | _ => simp [failure?]

theorem extend_eq_error {clause : Clause} (h : failure? screen clause = some error)
    (parts : Parts) : parts.extend screen draft clause = .error error := by
  obtain ⟨payload, rfl, hrefused, rfl⟩ := failure?_eq_some_iff.mp h
  cases payload with
  | string text =>
    have hflags : screen.flagsText text = true := by
      by_contra hflags
      exact hrefused ⟨text, rfl, by simpa using hflags⟩
    simp only [Parts.extend, hflags, if_true]
  | _ => rfl

/-- A clause that does not fail extends a statement, if its bindings can be written. -/
theorem exists_extend {clause : Clause} (h : failure? screen clause = none)
    (hwritable : ∀ binding ∈ clause.bindings, Writable screen draft binding) (parts : Parts) :
    ∃ next, parts.extend screen draft clause = .ok next := by
  cases clause with
  | filter link bindings =>
    cases bindings with
    | nil => exact ⟨parts, rfl⟩
    | cons binding bindings =>
      have htexts : filterText screen draft (binding :: bindings) =
          .ok (testsText draft (binding :: bindings)) := filterText_eq hwritable
      refine ⟨{ parts with conditions :=
        parts.conditions ++ [(link, testsText draft (binding :: bindings))] }, ?_⟩
      simp only [Parts.extend, htexts]
      rfl
  | raw link text => exact ⟨_, rfl⟩
  | setTarget => exact ⟨_, rfl⟩
  | misc payload =>
    rw [failure?] at h
    split at h
    · rename_i hpasses
      obtain ⟨text, rfl, hflags⟩ := hpasses
      refine ⟨{ parts with trailing := parts.trailing ++ [Unicode.trim text.toList] }, ?_⟩
      simp [Parts.extend, hflags]
    · cases h

/-- The first failure of clauses is a payload that is refused. -/
theorem findSome?_failure?_iff {clauses : List Clause} :
    clauses.findSome? (failure? screen) = some error ↔
      error = .unsupportedClause .misc "expected a screened SQL string" ∧
        ∃ payload, .misc payload ∈ clauses ∧ ¬PassesPayload screen payload := by
  constructor
  · intro h
    obtain ⟨clause, hmem, hclause⟩ := List.exists_of_findSome?_eq_some h
    obtain ⟨payload, rfl, hrefused, rfl⟩ := failure?_eq_some_iff.mp hclause
    exact ⟨rfl, payload, hmem, hrefused⟩
  · rintro ⟨rfl, payload, hmem, hrefused⟩
    have hfailure := failure?_eq_some_iff.mpr ⟨payload, rfl, hrefused, rfl⟩
    have hsome := List.findSome?_isSome_iff.mpr ⟨_, hmem, Option.isSome_of_eq_some hfailure⟩
    obtain ⟨cause, hfound⟩ := Option.isSome_iff_exists.mp hsome
    -- All refused payloads have one cause, so that it does not matter which of them is the first.
    obtain ⟨clause, -, hclause⟩ := List.exists_of_findSome?_eq_some hfound
    obtain ⟨other, rfl, -, rfl⟩ := failure?_eq_some_iff.mp hclause
    exact hfound

/-- The clauses of a draft are written unless a payload is refused. -/
theorem foldlM_extend_eq_error_iff (hwritable : AllWritable screen draft) :
    draft.clauses.foldlM (Parts.extend screen draft) {} = .error error ↔
      error = .unsupportedClause .misc "expected a screened SQL string" ∧
        ∃ payload, .misc payload ∈ draft.clauses ∧ ¬PassesPayload screen payload := by
  rw [← findSome?_failure?_iff]
  exact foldlM_eq_error_iff (fun clause hclause h => exists_extend h (hwritable clause hclause))
    (fun _ _ _ => extend_eq_error) {} error

theorem quoteName_eq_error_iff {name : String} : quoteName screen name = .error error ↔
    screen.flagsField name = true ∧
      error = .compile ("'" ++ name ++ "' is not a valid identifier") := by
  unfold quoteName
  split
  · rename_i hflags
    exact ⟨fun h => ⟨hflags, (Except.error.inj h).symm⟩, fun h => congrArg _ h.2.symm⟩
  · rename_i hflags
    exact iff_of_false nofun fun h => hflags h.1

/-- The statement for a target fails with a payload that is refused, or else with the name. -/
theorem statement_eq_error_iff {target : Target} (houtput : draft.output = some target)
    (hwritable : AllWritable screen draft) :
    statement screen draft = .error error ↔
      (error = .unsupportedClause .misc "expected a screened SQL string" ∧
        ∃ payload, .misc payload ∈ draft.clauses ∧ ¬PassesPayload screen payload) ∨
      (∀ payload, .misc payload ∈ draft.clauses → PassesPayload screen payload) ∧
        screen.flagsField target.name = true ∧
          error = .compile ("'" ++ target.name ++ "' is not a valid identifier") := by
  have hclauses {cause : BackendError} := @foldlM_extend_eq_error_iff _ _ cause hwritable
  rw [statement, houtput]
  dsimp only
  rw [bind_eq_error_iff, hclauses]
  refine or_congr_right ⟨?_, ?_⟩
  · rintro ⟨parts, hparts, h⟩
    rw [bind_eq_error_iff, quoteName_eq_error_iff] at h
    refine ⟨fun payload hmem => ?_, h.resolve_right (by rintro ⟨_, _, h⟩; cases h)⟩
    obtain ⟨first, next, hextend⟩ := exists_extend_of_foldlM hparts _ hmem
    exact payload_of_extend hextend
  · rintro ⟨hpassed, hname⟩
    cases hparts : draft.clauses.foldlM (Parts.extend screen draft) {} with
    | error cause =>
      obtain ⟨-, payload, hmem, hrefused⟩ := hclauses.mp hparts
      exact absurd (hpassed payload hmem) hrefused
    | ok parts =>
      refine ⟨parts, rfl, ?_⟩
      rw [bind_eq_error_iff, quoteName_eq_error_iff]
      exact .inl hname

/-- **The failures of a statement** whose fields can all be written. -/
theorem compile_eq_error_iff (hwritable : AllWritable screen draft) :
    compile screen draft = .error error ↔ Fails screen draft error := by
  rw [compile, map_eq_error_iff]
  cases houtput : draft.output with
  | none =>
    rw [statement, houtput]
    constructor
    · intro h
      obtain rfl := Except.error.inj h
      exact .target houtput
    · intro h
      cases h with
      | target _ => rfl
      | payload output _ _ => cases houtput.symm.trans output
      | name output _ _ => cases houtput.symm.trans output
  | some target =>
    rw [statement_eq_error_iff houtput hwritable]
    constructor
    · rintro (⟨rfl, payload, hmem, hrefused⟩ | ⟨hpassed, hflags, rfl⟩)
      · exact .payload houtput hmem hrefused
      · exact .name houtput hpassed hflags
    · intro h
      cases h with
      | target missing => cases missing.symm.trans houtput
      | payload _ own refused => exact .inl ⟨rfl, _, own, refused⟩
      | name output passed flagged =>
        obtain rfl := Option.some.inj (houtput.symm.trans output)
        exact .inr ⟨passed, flagged, rfl⟩

end Sql

/-! ## Plans -/

namespace Plan

variable {draft : Draft} {error : BackendError}

/-- **Why there is no plan.** The target comes before the clauses, and of these the first one that
has no place in a plan is reported. -/
inductive Fails (draft : Draft) : BackendError → Prop
  /-- No target was declared. -/
  | target (missing : draft.output = none) :
      Fails draft (.compile "query has no target collection")
  /-- A payload is no directive, and no clause before it fails. -/
  | directive {target : Target} {before : List Clause} {payload : Json} {after : List Clause}
      (output : draft.output = some target)
      (split : draft.clauses = before ++ .misc payload :: after)
      (planned : ∀ clause ∈ before, clause.IsPlanned)
      (refused : Directive.ofJson? payload = none) : Fails draft .plan
  /-- The text of a raw filter is no comparison, and no clause before it fails. -/
  | comparison {target : Target} {before : List Clause} {link : Link} {text : String}
      {after : List Clause} (output : draft.output = some target)
      (split : draft.clauses = before ++ .raw link text :: after)
      (planned : ∀ clause ∈ before, clause.IsPlanned)
      (refused : Predicate.ofText? text = none) :
      Fails draft (.compile ("cannot parse filter '" ++ text ++ "'"))

/-- How a clause fails. -/
def failure? : Clause → Option BackendError
  | .raw _ text =>
    if (Predicate.ofText? text).isSome then none
    else some (.compile ("cannot parse filter '" ++ text ++ "'"))
  | .misc payload => if (Directive.ofJson? payload).isSome then none else some .plan
  | _ => none

theorem failure?_eq_none_iff {clause : Clause} : failure? clause = none ↔ clause.IsPlanned := by
  cases clause with
  | raw link text => simp [failure?, Clause.IsPlanned, Option.isSome_iff_ne_none]
  | misc payload => simp [failure?, Clause.IsPlanned, Option.isSome_iff_ne_none]
  | _ => exact iff_of_true rfl trivial

/-- A clause that has a place in a plan extends it. -/
theorem exists_extend {clause : Clause} (h : clause.IsPlanned) (plan : Plan) :
    ∃ next, plan.extend clause = .ok next := by
  cases clause with
  | filter link bindings => cases bindings <;> exact ⟨_, rfl⟩
  | raw link text =>
    obtain ⟨predicate, hpredicate⟩ := Option.isSome_iff_exists.mp h
    exact ⟨plan.addStep link predicate, by simp [extend, hpredicate]⟩
  | setTarget => exact ⟨plan, rfl⟩
  | misc payload =>
    obtain ⟨directive, hdirective⟩ := Option.isSome_iff_exists.mp h
    exact ⟨plan.direct directive, by simp [extend, hdirective]⟩

/-- The clauses that fail, and how. -/
theorem failure?_eq_some_iff {clause : Clause} : failure? clause = some error ↔
    (∃ payload, clause = .misc payload ∧ Directive.ofJson? payload = none ∧ error = .plan) ∨
      ∃ link text, clause = .raw link text ∧ Predicate.ofText? text = none ∧
        error = .compile ("cannot parse filter '" ++ text ++ "'") := by
  cases clause with
  | raw link text => simp [failure?, eq_comm (a := error)]
  | misc payload => simp [failure?, eq_comm (a := error)]
  | _ => simp [failure?]

theorem extend_eq_error {clause : Clause} (h : failure? clause = some error) (plan : Plan) :
    plan.extend clause = .error error := by
  rcases failure?_eq_some_iff.mp h with ⟨payload, rfl, hrefused, rfl⟩ |
    ⟨link, text, rfl, hrefused, rfl⟩
  · simp [extend, hrefused]
  · simp [extend, hrefused]

/-- **The failures of a plan.** -/
theorem compile_eq_error_iff : compile draft = .error error ↔ Fails draft error := by
  have hclauses := @foldlM_eq_error_iff _ _ _ extend failure? draft.clauses
    (fun _ _ h => exists_extend (failure?_eq_none_iff.mp h)) fun _ _ _ => extend_eq_error
  rw [compile, map_eq_error_iff, ofDraft]
  cases houtput : draft.output with
  | none =>
    constructor
    · intro h
      obtain rfl := Except.error.inj h
      exact .target houtput
    · intro h
      cases h with
      | target _ => rfl
      | directive output _ _ _ => cases houtput.symm.trans output
      | comparison output _ _ _ => cases houtput.symm.trans output
  | some target =>
    dsimp only
    rw [hclauses, List.findSome?_eq_some_iff]
    simp only [failure?_eq_none_iff, failure?_eq_some_iff]
    constructor
    · rintro ⟨before, clause, after, hsplit, ⟨payload, rfl, hrefused, rfl⟩ |
        ⟨link, text, rfl, hrefused, rfl⟩, hplanned⟩
      · exact .directive houtput hsplit hplanned hrefused
      · exact .comparison houtput hsplit hplanned hrefused
    · intro h
      cases h with
      | target missing => cases missing.symm.trans houtput
      | directive _ split planned refused =>
        exact ⟨_, _, _, split, .inl ⟨_, rfl, refused, rfl⟩, planned⟩
      | comparison _ split planned refused =>
        exact ⟨_, _, _, split, .inr ⟨_, _, rfl, refused, rfl⟩, planned⟩

end Plan

/-! ## Runs -/

/-- **The errors of the guards** that the rules of drafts leave without work: an operator that is
none, filters and payloads that have nothing in them, a comparison that is none and a placeholder
without a value. -/
inductive BackendError.IsInternal : BackendError → Prop
  | operator (kind : Kind) : IsInternal (.unsupportedClause kind "unknown operator")
  | predicate (kind : Kind) :
      IsInternal (.unsupportedClause kind "filter clause without a predicate")
  | payload (kind : Kind) : IsInternal (.unsupportedClause kind "misc clause without payload")
  | comparison (token : String) : IsInternal (.compile ("unknown operator '" ++ token ++ "'"))
  | value (marker : String) :
      IsInternal (.compile ("placeholder " ++ marker ++ " has no bound value"))

theorem BackendError.not_isInternal_compile {c : Char} {reason : String}
    (h : reason.toList.head? = some c) (hu : c ≠ 'u') (hp : c ≠ 'p') :
    ¬IsInternal (.compile reason) := by
  intro hinternal
  cases hinternal with
  | comparison token =>
    rw [String.toList_append, String.toList_append] at h
    exact hu (Option.some.inj h).symm
  | value marker =>
    rw [String.toList_append, String.toList_append] at h
    exact hp (Option.some.inj h).symm

theorem BackendError.not_isInternal_unsupported {kind : Kind} {reason : String}
    (h : reason ∉ ["unknown operator", "filter clause without a predicate",
      "misc clause without payload"]) : ¬IsInternal (.unsupportedClause kind reason) := by
  intro hinternal
  cases hinternal <;> exact h (by decide)

theorem Sql.Fails.not_isInternal {screen : Screen} {draft : Draft} {cause : BackendError}
    (h : Fails screen draft cause) : ¬cause.IsInternal := by
  cases h with
  | target _ => exact BackendError.not_isInternal_compile rfl (by decide) (by decide)
  | payload _ _ _ => exact BackendError.not_isInternal_unsupported (by decide)
  | name _ _ _ =>
    refine BackendError.not_isInternal_compile (c := '\'') ?_ (by decide) (by decide)
    rw [String.toList_append, String.toList_append]
    rfl

theorem Plan.Fails.not_isInternal {draft : Draft} {cause : BackendError}
    (h : Fails draft cause) : ¬cause.IsInternal := by
  cases h with
  | target _ => exact BackendError.not_isInternal_compile rfl (by decide) (by decide)
  | directive _ _ _ _ => exact nofun
  | comparison _ _ _ _ =>
    refine BackendError.not_isInternal_compile (c := 'c') ?_ (by decide) (by decide)
    rw [String.toList_append, String.toList_append]
    rfl

/-- A fragment of a row, with those before it. -/
theorem exists_of_mem_places {fragments before : List Fragment} {fragment : Fragment}
    (h : (before, fragment) ∈ places fragments) :
    ∃ after, fragments = before ++ fragment :: after := by
  induction fragments using List.reverseRecOn with
  | nil => simp at h
  | append_singleton first last ih =>
    rw [places_append_singleton, List.mem_append, List.mem_singleton] at h
    rcases h with h | h
    · obtain ⟨after, rfl⟩ := ih h
      exact ⟨after ++ [last], by simp⟩
    · obtain ⟨rfl, rfl⟩ := Prod.mk.inj h
      exact ⟨[], rfl⟩

/-- The field of a binding comes from the filter of a fragment. -/
theorem Draft.exists_of_mem_bindings {fragments : List Fragment} {binding : Binding}
    (h : binding ∈ (collect fragments).bindings) :
    ∃ before fragment after, fragments = before ++ fragment :: after ∧
      binding.field ∈ (fragment.filterBehind before).keys := by
  have hfield := List.mem_map_of_mem (f := Binding.field) h
  rw [collect_bindings, map_field_bindingsFrom] at hfield
  obtain ⟨entry, hentry, hkey⟩ := List.mem_map.mp hfield
  obtain ⟨⟨before, fragment⟩, hplace, hmem⟩ := List.mem_flatMap.mp hentry
  obtain ⟨after, hsplit⟩ := exists_of_mem_places hplace
  exact ⟨before, fragment, after, hsplit, List.mem_map.mpr ⟨entry, hmem, hkey⟩⟩

namespace Bench

variable {commands : List Command} {screen : Screen}

/-- **An accepted fragment was admitted** behind those before it, by the backend of then. -/
theorem admits_of_accepted {before after : List Fragment} {fragment : Fragment}
    (h : accepted {} commands = before ++ fragment :: after) :
    ∃ backend, Took commands backend fragment ∧ Draft.Admits backend before fragment := by
  induction commands using List.reverseRecOn generalizing after with
  | nil => simp at h
  | append_singleton commands command ih =>
    rw [accepted_append_singleton] at h
    -- What was accepted before the last command was admitted then.
    have hbehind (hreset : command ≠ .reset) {rest : List Fragment}
        (hsplit : accepted {} commands = before ++ fragment :: rest) :
        ∃ backend, Took (commands ++ [command]) backend fragment ∧
          Draft.Admits backend before fragment := by
      obtain ⟨backend, htook, hadmits⟩ := ih hsplit
      exact ⟨backend, htook.behind hreset, hadmits⟩
    cases command with
    | reset => simp [acceptedBehind] at h
    | sync =>
      have hsync (middle : List Fragment) (hold : before = accepted {} commands ++ middle)
          (hnew : (run {} commands).syncAccepts = middle ++ fragment :: after) :
          ∃ backend, Took (commands ++ [.sync]) backend fragment ∧
            Draft.Admits backend before fragment := by
        have hadmits := admitsAll_syncAccepts (run_draft {} rfl commands) middle fragment after hnew
        exact ⟨_, ⟨commands, [], rfl, List.not_mem_nil, rfl, by simp [hnew]⟩, hold ▸ hadmits⟩
      rcases List.append_eq_append_iff.mp h with ⟨middle, hold, hnew⟩ | ⟨rest, hold, hnew⟩
      · exact hsync middle hold hnew
      · cases rest with
        | nil => exact hsync [] (by simpa using hold.symm) (by simpa using hnew.symm)
        | cons head rest =>
          obtain ⟨rfl, rfl⟩ := List.cons.inj hnew
          exact hbehind (by simp) hold
    | _ => exact hbehind (by simp) h

/-- **A run in which one screen was in charge** of the fields of all fragments that the draft has
taken. -/
def TakenBy (commands : List Command) (screen : Screen) : Prop :=
  ∀ backend fragment, Took commands (some backend) fragment →
    backend.flagsField = screen.flagsField

/-- **The bindings of such a run can be written**: their fields were screened, and they have
values. -/
theorem TakenBy.allWritable (h : TakenBy commands screen) :
    Sql.AllWritable screen (run {} commands).engine.draft := by
  intro clause hclause binding hbinding
  refine ⟨?_, ?_⟩
  · rw [(run_draft {} rfl commands).clauses] at hclause
    obtain ⟨before, fragment, after, hsplit, hfield⟩ :=
      Draft.exists_of_mem_bindings (List.mem_flatMap.mpr ⟨clause, hclause, hbinding⟩)
    obtain ⟨backend, htook, hadmits⟩ := admits_of_accepted hsplit
    obtain ⟨b, hb, hflags⟩ := hadmits.fields _ hfield
    obtain rfl : backend = some b := hb
    rwa [h b fragment htook] at hflags
  · rw [Draft.param?, Option.isSome_iff_exists]
    exact ⟨_, List.getElem?_eq_getElem (run_index_lt commands clause hclause binding hbinding)⟩

/-- **A compilation fails as its backend does**, and a compiler that guards against everything
fails for no other causes. -/
structure FailsAs (outcome : Except QueryError CompiledQuery)
    (guarded : Except BackendError CompiledQuery) (fails : BackendError → Prop) : Prop where
  outcome : ∀ error, outcome = .error error ↔ ∃ cause, error = .backend cause ∧ fails cause
  guarded : ∀ cause, guarded = .error cause ↔ fails cause
  internal : ∀ cause, fails cause → ¬cause.IsInternal

end Bench

/-- An engine with a backend and a draft that is not poisoned fails as the backend does. -/
theorem Engine.compile_eq_error_iff {engine : Engine} {backend : Backend} {error : QueryError}
    (hbackend : engine.backend = some backend) (hpoisoned : engine.draft.poisoned = false)
    (tally : Tally) : (engine.compile tally).1 = .error error ↔
      ∃ cause, error = .backend cause ∧ backend.compile engine.draft = .error cause := by
  rw [compile, hbackend]
  dsimp only
  rw [hpoisoned, if_neg Bool.false_ne_true]
  cases backend.compile engine.draft with
  | error cause =>
    constructor
    · exact fun h => ⟨cause, (Except.error.inj h).symm, rfl⟩
    · rintro ⟨other, rfl, h⟩
      exact congrArg (Except.error ∘ QueryError.backend) (Except.error.inj h)
  | ok query =>
    constructor
    · intro h
      cases h
    · rintro ⟨cause, -, h⟩
      cases h

namespace Bench

/-- **Why a compilation fails.** Take any run after which the draft is not poisoned.

Let it be compiled by a database whose screen has been in charge of the fields since the last
reset. Then it fails if there is no target; or else if a payload is no text or is flagged; or else
if the name of the target is flagged. All fields can be written.

Let it be compiled by collections. Then it fails if there is no target, or else with the cause of
the first clause that is a payload but no directive, or a raw filter but no comparison.

There are no other causes. In particular no operator is unknown, no filter is without a condition,
no payload is missing, all placeholders have values and no field is refused: compilers that guard
against this in the operators and bodies of the accepted fragments fail for the same causes. -/
theorem run_compile_fails (commands : List Command) (tally : Tally) :
    let engine := (run {} commands).engine
    let entries := Draft.entries (accepted {} commands)
    engine.draft.poisoned = false →
      (∀ screen database, engine.backend = some (Sql.backend screen database) →
        TakenBy commands screen →
          FailsAs (engine.compile tally).1 (Sql.compileEntries screen engine.draft entries)
            (Sql.Fails screen engine.draft) ∧
          Sql.AllWritable screen engine.draft) ∧
      ∀ screen collections sorting,
        engine.backend = some (Plan.backend screen collections sorting) →
          FailsAs (engine.compile tally).1 (Plan.compileEntries engine.draft entries)
            (Plan.Fails engine.draft) := by
  intro engine entries hpoisoned
  have hentries : entries = engine.draft.clauses.map Clause.entry := by
    rw [(run_draft {} rfl commands).clauses, Draft.map_entry_collect]
  refine ⟨fun screen database hbackend htaken => ?_, fun screen collections sorting hbackend => ?_⟩
  · have hwritable := htaken.allWritable
    have hfails (cause : BackendError) :
        Sql.compile screen engine.draft = .error cause ↔ Sql.Fails screen engine.draft cause :=
      Sql.compile_eq_error_iff hwritable
    refine ⟨⟨fun error => ?_, fun cause => ?_, fun _ => Sql.Fails.not_isInternal⟩, hwritable⟩
    · rw [Engine.compile_eq_error_iff hbackend hpoisoned]
      exact exists_congr fun cause => and_congr_right fun _ => hfails cause
    · rw [hentries, Sql.compileEntries_map_entry, hfails]
  · have hfails (cause : BackendError) :
        Plan.compile engine.draft = .error cause ↔ Plan.Fails engine.draft cause :=
      Plan.compile_eq_error_iff
    refine ⟨fun error => ?_, fun cause => ?_, fun _ => Plan.Fails.not_isInternal⟩
    · rw [Engine.compile_eq_error_iff hbackend hpoisoned]
      exact exists_congr fun cause => and_congr_right fun _ => hfails cause
    · rw [hentries, Plan.compileEntries_map_entry, hfails]

/-- A payload that would end the statement, and a raw filter that is no comparison before a payload
that is no directive. -/
theorem run_compile_fails_first :
    let pushed : List Command := [.setBackend (Sql.backend {} []), .attach 0,
      .push 0 (.structured .start (.ofList [("age", .int 36)])), .push 0 (.find ⟨"users", 0⟩),
      .push 0 (.misc (.string "LIMIT 1; DROP"))]
    let commands := pushed ++ [.sync]
    let others : List Command := [.setBackend (Plan.backend {} .empty), .attach 0,
      .push 0 (.raw .start "age"), .push 0 (.misc (.string "LIMIT 1")), .push 0 (.find ⟨"users", 0⟩),
      .sync]
    let engine := (run {} commands).engine
    let other := (run {} others).engine
    (engine.draft.poisoned = false ∧ engine.backend = some (Sql.backend {} []) ∧
      TakenBy commands {} ∧ (engine.compile {}).1 =
        .error (.backend (.unsupportedClause .misc "expected a screened SQL string"))) ∧
    other.draft.poisoned = false ∧ other.backend = some (Plan.backend {} .empty) ∧
      (other.compile {}).1 = .error (.backend (.compile "cannot parse filter 'age'")) := by
  intro pushed commands others engine other
  have hclauses : engine.draft.clauses =
      [.filter .start [⟨"age", ⟨0⟩⟩], .setTarget, .misc (.string "LIMIT 1; DROP")] := rfl
  have hothers : other.draft.clauses =
      [] ++ .raw .start "age" :: [.misc (.string "LIMIT 1"), .setTarget] := rfl
  have htaken : TakenBy commands {} := by
    rintro backend fragment ⟨before, after, hsplit, -, hbackend, -⟩
    rcases eq_last_or_before hsplit.symm with ⟨rfl, -, -⟩ | ⟨rest, -, hpushed⟩
    · obtain rfl := Option.some.inj hbackend
      rfl
    · -- There is no sync but the last.
      have hsync : Command.sync ∈ pushed := hpushed ▸ List.mem_append_right before (.head rest)
      simp [pushed] at hsync
  have hrefused : ¬Sql.PassesPayload {} (.string "LIMIT 1; DROP") := by
    rintro ⟨text, htext, hflags⟩
    obtain rfl := Json.string.inj htext
    exact absurd hflags (by decide)
  have hfails := ((run_compile_fails commands {} rfl).1 {} [] rfl htaken).1
  have hother := (run_compile_fails others {} rfl).2 {} .empty .merge rfl
  refine ⟨⟨rfl, rfl, htaken, (hfails.outcome _).mpr ⟨_, rfl, ?_⟩⟩, rfl, rfl,
    (hother.outcome _).mpr ⟨_, rfl, ?_⟩⟩
  · exact .payload rfl (by rw [hclauses]; simp) hrefused
  · exact .comparison rfl hothers (by simp) (by decide +kernel)

end Bench

end ScreenedQuery
