import ScreenedQuery.Proofs.Engine.Run
import ScreenedQuery.Proofs.Plan.Ordering

/-!
# Compiled plans are executed

The text of a compiled plan is read as this plan again, and all of its parameters have values, so
that the execution of a compiled query reports nothing but a collection that is not there.

## Main results

* `Bench.run_compile_executes`: a compiled plan is read and executed
-/

namespace ScreenedQuery

namespace Bench

/-- **A compiled plan can always be executed.** Take any run, and let the draft be compiled by
collections in the end, with no more parameters than 64 bits can count. The text is that of the
plan that describes the draft: its collection is the target, there is a step for each filter with
a condition, in order, and the order and the limit are those that were asked for last. All of its
parameters have values, and all of its numbers are finite.

The text is read as this plan again, with numbers that are finite again; if they are each read as
themselves, it is the plan itself. On whichever collections the query is executed, in a transaction
or not, and however records are sorted, it reports nothing but that the collection of the target is
not there. If it is there, then the query has rows, at least if the records that it keeps compare
consistently in the order that was asked for; if they do not, then it has rows, or the sorting
panics. -/
theorem run_compile_executes {commands : List Command} {screen : Screen} {stored : Collections}
    {sorting : Sorting Record} {query : CompiledQuery}
    (hcompile : (Plan.backend screen stored sorting).compile (run {} commands).engine.draft =
      .ok query)
    (hcount : query.params.length ≤ UInt64.size) :
    let draft := (run {} commands).engine.draft
    ∃ target plan, draft.output = some target ∧ Plan.Describes plan draft target ∧
      query.text = plan.toText ∧ query.params = draft.params ∧ plan.IsBound query.params ∧
      Plan.ofText? query.text = some plan.reread ∧
      (∀ step ∈ plan.steps, ∀ field comparison x,
        step.predicate = .compare field comparison (.float x) →
          x.isFinite = true ∧ x.reread.isFinite = true) ∧
      ((∀ step ∈ plan.steps, ∀ field comparison x,
        step.predicate = .compare field comparison (.float x) → x.reread = x) →
          plan.reread = plan) ∧
      ∀ (collections : Collections) (transactional : Bool),
        let execution := (Plan.backend screen collections sorting).execute
          { query with transactional }
        (collections.get? target.name = none →
          execution = .error (.unknownCollection target.name)) ∧
        ∀ records, collections.get? target.name = some records →
          let kept := {record | record ∈ records ∧
            Plan.KeptBy query.params record plan.reread.steps}
          ((∀ order ∈ plan.orderBy, order.IsConsistent kept) → ∃ rows, execution = .ok rows) ∧
          ∀ cause, execution = .error cause →
            cause = .panic ∧ ∃ order ∈ plan.orderBy, ¬order.IsConsistent kept := by
  intro draft
  obtain ⟨target, plan, houtput, hdescribes, rfl⟩ := Plan.compile_eq_ok hcompile
  have hbound := hdescribes.isBound (run_index_lt commands)
  have hprintable := hdescribes.isPrintable hbound hcount
  have hread := Plan.ofText?_toText hprintable
  refine ⟨target, plan, houtput, hdescribes, rfl, rfl, hbound, hread, ?_,
    Plan.reread_eq_self_of_floats, fun collections transactional => ?_⟩
  · intro step hstep field comparison x hpredicate
    have hliteral := hprintable.steps step hstep
    rw [hpredicate] at hliteral
    exact ⟨hliteral, Binary64.isFinite_reread hliteral⟩
  · have hexecute : (Plan.backend screen collections sorting).execute
        { text := plan.toText, params := draft.params, transactional } =
          plan.reread.evaluate sorting collections draft.params := by
      rw [Plan.execute_backend, Plan.execute, hread]
    have hcollection : plan.reread.collection = target.name := hdescribes.collection
    dsimp only
    rw [hexecute]
    refine ⟨fun hnone => ?_, fun records hsome => ?_⟩
    · rw [Plan.evaluate_unknown (by rw [hcollection]; exact hnone), hcollection]
    · rw [← hcollection] at hsome
      refine ⟨fun hconsistent => ?_, fun cause hcause => ?_⟩
      · obtain ⟨places, -, hrows⟩ := Plan.exists_arrangesAt hsome hbound.reread hconsistent
        exact ⟨_, hrows⟩
      · rcases Plan.evaluate_cases hsome hbound.reread with ⟨arranged, -, hrows⟩ | ⟨hpanic, hnot⟩
        · rw [hrows] at hcause
          cases hcause
        · rw [hpanic] at hcause
          exact ⟨(Except.error.inj hcause).symm, hnot⟩

/-- A structured filter, a comparison with one half and a limit. -/
theorem run_compile_executes_half :
    let commands : List Command := [.setBackend (Plan.backend {} .empty), .attach 0,
      .push 0 (.structured .start (.ofList [("age", .int 36)])), .push 0 (.raw .or "score < 0.5"),
      .push 0 (.misc (.object [("limit", .integer 1)])), .push 0 (.find ⟨"people", 0⟩), .sync]
    let plan : Plan := ⟨"people", [⟨.start, .allEqual [⟨"age", 0⟩]⟩,
      ⟨.or, .compare "score" .lt (.float ⟨0x3FE0000000000000⟩)⟩], none, some 1⟩
    let query : CompiledQuery := ⟨plan.toText, [.int 36], false⟩
    (Plan.backend {} .empty).compile (run {} commands).engine.draft = .ok query ∧
      query.params.length ≤ UInt64.size ∧ Plan.ofText? query.text = some plan ∧
      (Plan.backend {} .empty).execute query = .error (.unknownCollection "people") ∧
      ∃ rows, (Plan.backend {} (.ofList [("people", [])])).execute query = .ok rows := by
  intro commands plan query
  have hraw : Predicate.ofText? "score < 0.5" =
      some (.compare "score" .lt (.float ⟨0x3FE0000000000000⟩)) := by decide +kernel
  have hmisc : Directive.ofJson? (.object [("limit", .integer 1)]) =
      some ⟨none, false, some 1⟩ := by decide +kernel
  have hhalf : Binary64.reread ⟨0x3FE0000000000000⟩ = ⟨0x3FE0000000000000⟩ := by decide +kernel
  have hclauses : (run {} commands).engine.draft.clauses =
      [.filter .start [⟨"age", ⟨0⟩⟩], .raw .or "score < 0.5",
        .misc (.object [("limit", .integer 1)]), .setTarget] := rfl
  have houtput : (run {} commands).engine.draft.output = some ⟨"people", 0⟩ := rfl
  have hparams : (run {} commands).engine.draft.params = [.int 36] := rfl
  have hcompile : (Plan.backend {} .empty).compile (run {} commands).engine.draft = .ok query := by
    generalize (run {} commands).engine.draft = draft at hclauses houtput hparams
    rw [Plan.compile_backend, Plan.compile, Plan.ofDraft, houtput, hclauses, hparams]
    simp only [List.foldlM_cons, Plan.extend, hraw, hmisc]
    rfl
  have hcount : query.params.length ≤ UInt64.size := by decide
  obtain ⟨target, compiled, htarget, hdescribes, htext, -, -, hread, -, hsame, hexecute⟩ :=
    @run_compile_executes _ _ _ .merge _ hcompile hcount
  obtain rfl : _ = target := Option.some.inj (houtput.symm.trans htarget)
  have hcompiled : compiled = plan := by
    obtain ⟨collection, steps, orderBy, limit⟩ := compiled
    obtain ⟨hcollection, hsteps, horder, hlimit, -⟩ := hdescribes
    rw [hclauses] at hsteps horder hlimit
    simp [Clause.step?, hraw] at hsteps
    simp [Clause.order?] at horder
    simp [Clause.limit?] at hlimit
    obtain rfl : collection = "people" := hcollection
    rw [hsteps, horder, hlimit]
    rfl
  rw [hcompiled] at hread hsame hexecute
  have hreread : plan.reread = plan := by
    refine hsame fun step hstep field comparison x hpredicate => ?_
    rcases List.mem_pair.mp hstep with rfl | rfl
    · cases hpredicate
    · obtain ⟨-, -, hx⟩ := Predicate.compare.inj hpredicate
      obtain rfl := Value.float.inj hx
      exact hhalf
  rw [hreread] at hread
  exact ⟨hcompile, hcount, hread, (hexecute .empty false).1 rfl,
    ((hexecute (.ofList [("people", [])]) false).2 [] rfl).1 (by simp [plan])⟩

end Bench

end ScreenedQuery
