import ScreenedQuery.Engine.Basic
import ScreenedQuery.Plan.Evaluation
import ScreenedQuery.Proofs.FieldMap
import ScreenedQuery.Sql.Evaluation

/-!
# Values stay out of queries

The values of structured filters are bound, and the text of a query does not depend on them. Where
a function is applied to all values of the fragments, all that changes is that it is applied to the
parameters of the draft. So two rows of fragments that become the same when their values are
forgotten are taken in the same way.

## Main definitions

* `Fragment.mapValues`, `Draft.mapParams`: a function applied to all values
* `Value.forget`, `Value.nullness`: all values alike, and all but null alike

## Main results

* `Draft.accept_map`, `Draft.drain_map`, `Engine.sync_map`: values go through, and decide nothing
* `Sql.statement_mapParams`: a statement asks of a value whether it is null
* `Engine.sync_ignores_values`: two runs that differ in values only
-/

namespace ScreenedQuery

/-! ## Forgetting values -/

/-- A fragment with a function applied to the values of its filter. -/
def Fragment.mapValues (f : Value → Value) : Fragment → Fragment
  | structured link filter => structured link (filter.map f)
  | raw link text => raw link text
  | setTarget filter target => setTarget (filter.map f) target
  | misc payload => misc payload

/-- A draft with a function applied to its values. -/
def Draft.mapParams (f : Value → Value) (draft : Draft) : Draft :=
  { draft with params := draft.params.map f }

/-- An engine with a function applied to the values of its draft. -/
def Engine.mapParams (f : Value → Value) (engine : Engine) : Engine :=
  { engine with draft := engine.draft.mapParams f }

/-- All values alike. -/
def Value.forget (_ : Value) : Value := .null

/-- All values alike, except for null. -/
def Value.nullness (value : Value) : Value := if value = .null then .null else .bool true

theorem Value.nullness_eq_null_iff (value : Value) : value.nullness = .null ↔ value = .null := by
  unfold Value.nullness
  split <;> simp [*]

/-! ## What a draft does with values -/

variable {f : Value → Value}

@[simp] theorem Fragment.kind_mapValues (fragment : Fragment) :
    (fragment.mapValues f).kind = fragment.kind := by
  cases fragment <;> rfl

theorem screenFilter_map (backend : Option Backend) (kind : Kind) (filter : Filter) :
    screenFilter backend kind (filter.map f) = screenFilter backend kind filter := by
  have hempty : (filter.map f).isEmpty = filter.isEmpty := by
    simp [FieldMap.isEmpty, FieldMap.map]
  simp only [screenFilter, FieldMap.keys_map, hempty]

namespace Draft

@[simp] theorem mapParams_clauses (draft : Draft) :
    (draft.mapParams f).clauses = draft.clauses := rfl

@[simp] theorem mapParams_params (draft : Draft) :
    (draft.mapParams f).params = draft.params.map f := rfl

theorem addFilter_map (draft : Draft) (link : Link) (filter : Filter) :
    (draft.mapParams f).addFilter link (filter.map f) =
      (draft.addFilter link filter).mapParams f := by
  simp [addFilter, bind, mapParams, push, bindingsFrom, FieldMap.keys, FieldMap.map,
    Function.comp_def]

theorem extend_map (draft : Draft) (backend : Option Backend) (fragment : Fragment) :
    (draft.mapParams f).extend backend (fragment.mapValues f) =
      (draft.extend backend fragment).map (mapParams f) := by
  have hchain (kind : Kind) (link : Link) :
      (draft.mapParams f).chainRule kind link = draft.chainRule kind link := by
    cases link <;> rfl
  cases fragment with
  | structured link filter =>
    simp only [Fragment.mapValues, extend, Fragment.kind, hchain, screenFilter_map, addFilter_map]
    cases draft.chainRule (.structured link) link with
    | error error => rfl
    | ok _ => cases screenFilter backend (.structured link) filter <;> rfl
  | raw link text =>
    simp only [Fragment.mapValues, extend, Fragment.kind, hchain]
    cases draft.chainRule (.raw link) link with
    | error error => rfl
    | ok _ => cases screenText backend (.raw link) text <;> rfl
  | setTarget filter target =>
    simp only [Fragment.mapValues, extend, Fragment.kind, screenFilter_map, addFilter_map]
    -- Whether the filter of the target counts does not depend on a value.
    cases hfiltered : draft.filtered with
    | true =>
      have hmapped : (draft.mapParams f).filtered = true := hfiltered
      simp only [hmapped, if_true]
      rfl
    | false =>
      have hmapped : (draft.mapParams f).filtered = false := hfiltered
      simp only [hmapped, Bool.false_eq_true, if_false]
      cases screenFilter backend .setTarget filter <;> rfl
  | misc payload => rfl

/-- **A fragment is accepted or refused whatever its values are**, and they become parameters. -/
theorem accept_map (draft : Draft) (backend : Option Backend) (fragment : Fragment) :
    (draft.mapParams f).accept backend (fragment.mapValues f) =
      (draft.accept backend fragment).map (mapParams f) := by
  rw [accept, accept, extend_map, Fragment.kind_mapValues]
  cases draft.extend backend fragment <;> rfl

theorem drain_map (draft : Draft) (backend : Option Backend) (fragments : List Fragment) :
    drain backend (draft.mapParams f) (fragments.map (Fragment.mapValues f)) =
      let drained := drain backend draft fragments
      ⟨drained.draft.mapParams f, drained.accepted, drained.error,
        drained.rest.map (Fragment.mapValues f)⟩ := by
  -- For every draft, because each fragment that is accepted changes it.
  induction fragments generalizing draft with
  | nil => rfl
  | cons fragment rest ih =>
    rw [List.map_cons, drain, drain, accept_map]
    cases draft.accept backend fragment with
    | error error =>
      have hrefuse : (draft.mapParams f).refuse (fragment.mapValues f) =
          (draft.refuse fragment).mapParams f := by
        simp [refuse, mapParams]
      dsimp only [Except.map]
      rw [hrefuse]
    | ok accepted =>
      dsimp only [Except.map]
      rw [ih]

/-- What a drain leaves is what stands behind the fragments that it took. -/
theorem drain_rest (draft : Draft) (backend : Option Backend) (fragments : List Fragment) :
    let drained := drain backend draft fragments
    drained.rest = fragments.drop (drained.accepted + if drained.error.isSome then 1 else 0) := by
  induction fragments generalizing draft with
  | nil => rfl
  | cons fragment rest ih =>
    rw [drain]
    cases draft.accept backend fragment with
    | error error => rfl
    | ok accepted =>
      dsimp only
      rw [ih accepted, Nat.add_right_comm, List.drop_succ_cons]

end Draft

/-! ## What a sync does with values -/

/-- **A sync goes the same way whatever the values are.** -/
theorem Engine.sync_map (engine : Engine) (fragments : List Fragment) (tally : Tally) :
    (engine.mapParams f).sync ⟨fragments.map (Fragment.mapValues f)⟩ tally =
      let synced := engine.sync ⟨fragments⟩ tally
      ⟨synced.outcome, synced.engine.mapParams f,
        ⟨synced.queue.items.map (Fragment.mapValues f)⟩, synced.tally⟩ := by
  have hpoisoned : (engine.mapParams f).draft.poisoned = engine.draft.poisoned := rfl
  have hdrain : (engine.mapParams f).draft.drain (engine.mapParams f).backend
      (fragments.map (Fragment.mapValues f)) = _ := engine.draft.drain_map engine.backend fragments
  simp only [sync, hpoisoned, hdrain]
  split <;> rfl

/-- What a sync leaves in the queue is what stands behind the fragments that it took. -/
theorem Engine.sync_queue (engine : Engine) (fragments : List Fragment) (tally : Tally) :
    let synced := engine.sync ⟨fragments⟩ tally
    synced.queue.items = fragments.drop
      ((synced.tally.accepted + synced.tally.rejected) - (tally.accepted + tally.rejected)) := by
  unfold sync
  split
  · simp
  · dsimp only
    rw [Draft.drain_rest]
    congr 1
    omega

/-! ## Compiled texts -/

/-- A plan is made without a look at the values. -/
theorem Plan.ofDraft_mapParams (draft : Draft) :
    Plan.ofDraft (draft.mapParams f) = Plan.ofDraft draft := rfl

/-- **A statement asks of a value whether it is null**, and nothing else. -/
theorem Sql.statement_mapParams (hnull : ∀ value, f value = .null ↔ value = .null)
    (screen : Screen) (draft : Draft) :
    Sql.statement screen (draft.mapParams f) = Sql.statement screen draft := by
  have hbinding (binding : Binding) :
      bindingText screen (draft.mapParams f) binding = bindingText screen draft binding := by
    simp only [bindingText, Draft.param?, Draft.mapParams_params, List.getElem?_map]
    cases draft.params[binding.placeholder.index]? with
    | none => rfl
    | some value => simp only [Option.map_some, hnull]
  have hfilter (bindings : List Binding) :
      filterText screen (draft.mapParams f) bindings = filterText screen draft bindings := by
    simp only [filterText, funext hbinding]
  have hextend (parts : Parts) (clause : Clause) :
      parts.extend screen (draft.mapParams f) clause = parts.extend screen draft clause := by
    cases clause with
    | filter link bindings => cases bindings <;> simp only [Parts.extend, hfilter]
    | raw link text => rfl
    | setTarget => rfl
    | misc payload => rfl
  have houtput : (draft.mapParams f).output = draft.output := rfl
  have hextends := funext fun parts => funext (hextend parts)
  simp only [statement, houtput, Draft.mapParams_clauses, hextends]

theorem Plan.map_text_compile (draft : Draft) :
    (Plan.compile draft).map CompiledQuery.text = (Plan.ofDraft draft).map Plan.toText := by
  unfold Plan.compile
  cases Plan.ofDraft draft <;> rfl

theorem Sql.map_text_compile (screen : Screen) (draft : Draft) :
    (Sql.compile screen draft).map CompiledQuery.text =
      (Sql.statement screen draft).map String.ofList := by
  unfold Sql.compile
  cases Sql.statement screen draft <;> rfl

/-! ## Two runs -/

/-- Two rows of fragments that a function on values makes the same are synced in the same way, up
to this function. -/
theorem Engine.sync_of_map_eq {first second : List Fragment}
    (h : first.map (Fragment.mapValues f) = second.map (Fragment.mapValues f)) (engine : Engine)
    (tally : Tally) :
    let one := engine.sync ⟨first⟩ tally
    let other := engine.sync ⟨second⟩ tally
    one.outcome = other.outcome ∧
      one.engine.draft.mapParams f = other.engine.draft.mapParams f ∧ one.tally = other.tally := by
  intro one other
  -- Both runs are mapped to one and the same run.
  have hone : (engine.mapParams f).sync ⟨first.map (Fragment.mapValues f)⟩ tally = _ :=
    engine.sync_map first tally
  have hother : (engine.mapParams f).sync ⟨second.map (Fragment.mapValues f)⟩ tally = _ :=
    engine.sync_map second tally
  have hsame := hone.symm.trans (h ▸ hother)
  injection hsame with houtcome hengine _ htally
  exact ⟨houtcome, congrArg Engine.draft hengine, htally⟩

/-- **Values do not influence a query.** Two rows of fragments that differ in the values of their
filters only are synced with the same outcome, the same clauses and as many parameters, and leave
the same fragments in the queue. Their plans have the same text, and so have their statements if
null stands in the same places. -/
theorem Engine.sync_ignores_values (engine : Engine) (first second : List Fragment) (tally : Tally)
    (h : first.map (Fragment.mapValues Value.forget) =
      second.map (Fragment.mapValues Value.forget)) :
    let one := engine.sync ⟨first⟩ tally
    let other := engine.sync ⟨second⟩ tally
    one.outcome = other.outcome ∧
      one.engine.draft.clauses = other.engine.draft.clauses ∧
      one.engine.draft.params.length = other.engine.draft.params.length ∧
      (∃ taken, one.queue.items = first.drop taken ∧ other.queue.items = second.drop taken) ∧
      (Plan.compile one.engine.draft).map CompiledQuery.text =
        (Plan.compile other.engine.draft).map CompiledQuery.text ∧
      ∀ screen : Screen,
        first.map (Fragment.mapValues Value.nullness) =
          second.map (Fragment.mapValues Value.nullness) →
        (Sql.compile screen one.engine.draft).map CompiledQuery.text =
          (Sql.compile screen other.engine.draft).map CompiledQuery.text := by
  intro one other
  obtain ⟨houtcome, hdraft, htally⟩ := engine.sync_of_map_eq h tally
  refine ⟨houtcome, ?_, ?_, ⟨_, engine.sync_queue first tally, ?_⟩, ?_, fun screen hnull => ?_⟩
  · simpa using congrArg Draft.clauses hdraft
  · simpa using congrArg (fun draft => draft.params.length) hdraft
  · -- As many fragments are taken as the tally goes up by.
    rw [htally]
    exact engine.sync_queue second tally
  · -- The clauses of both drafts are the same when all values are forgotten.
    rw [Plan.map_text_compile, Plan.map_text_compile, ← @Plan.ofDraft_mapParams Value.forget,
      hdraft, Plan.ofDraft_mapParams]
  · have hdraft := (engine.sync_of_map_eq hnull tally).2.1
    rw [Sql.map_text_compile, Sql.map_text_compile,
      ← Sql.statement_mapParams Value.nullness_eq_null_iff, hdraft,
      Sql.statement_mapParams Value.nullness_eq_null_iff]

/-- An age of seven, or of forty-two. -/
theorem Engine.sync_ignores_values_age :
    let engine : Engine := { backend := some (Sql.backend {} []) }
    let fragments (age : Int64) : List Fragment :=
      [.structured .start (.ofList [("age", .int age)]), .find ⟨"users", 0⟩]
    let compiled (age : Int64) : Except BackendError String :=
      (Sql.compile {} (engine.sync ⟨fragments age⟩ {}).engine.draft).map CompiledQuery.text
    (fragments 7).map (Fragment.mapValues Value.forget) =
        (fragments 42).map (Fragment.mapValues Value.forget) ∧
      (engine.sync ⟨fragments 7⟩ {}).outcome = .ok () ∧
      (engine.sync ⟨fragments 42⟩ {}).outcome = .ok () ∧
      compiled 7 = .ok "SELECT * FROM \"users\" WHERE (\"age\" = ?1)" ∧
      compiled 42 = .ok "SELECT * FROM \"users\" WHERE (\"age\" = ?1)" := by
  intro engine fragments compiled
  have hforget : (fragments 7).map (Fragment.mapValues Value.forget) =
      (fragments 42).map (Fragment.mapValues Value.forget) := rfl
  have hnull : (fragments 7).map (Fragment.mapValues Value.nullness) =
      (fragments 42).map (Fragment.mapValues Value.nullness) := rfl
  have hdraft : (engine.sync ⟨fragments 7⟩ {}).engine.draft =
      ⟨[.filter .start [⟨"age", ⟨0⟩⟩], .setTarget], [.int 7], .setTarget, .setTarget, true,
        some ⟨"users", 0⟩, false⟩ := rfl
  have hseven : compiled 7 = .ok "SELECT * FROM \"users\" WHERE (\"age\" = ?1)" := by
    simp only [compiled, hdraft]
    rfl
  obtain ⟨houtcome, -, -, -, -, htext⟩ :=
    engine.sync_ignores_values (fragments 7) (fragments 42) {} hforget
  exact ⟨hforget, rfl, houtcome.symm, hseven, (htext {} hnull).symm.trans hseven⟩

end ScreenedQuery
