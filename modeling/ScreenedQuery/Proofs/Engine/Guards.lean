import ScreenedQuery.Plan.Draft
import ScreenedQuery.Proofs.Draft.History
import ScreenedQuery.Sql.Draft

/-!
# Operators with bodies

A clause ties an operator to what belongs to it. Where the two are only kept side by side, nothing
keeps a filter from being without a condition, a payload from being missing or an operator from
being none, and a compiler has to guard against all of these. The pairs that fragments leave behind
are those of the clauses of their draft, so that the guards have no work.

## Main definitions

* `Entry`: an operator with a body
* `Draft.entries`: what fragments leave behind
* `Sql.compileEntries`, `Plan.compileEntries`: the compilers with their guards

## Main results

* `Draft.map_entry_collect`: what fragments leave behind are the clauses of their draft
* `Sql.compileEntries_map_entry`, `Plan.compileEntries_map_entry`: the guards have no work
-/

namespace ScreenedQuery

/-- What is kept of a fragment beside its operator. -/
inductive Body
  | filter (bindings : List Binding)
  | raw (text : String)
  | payload (payload : Json)
  | empty

/-- **An operator with a body**, which need not belong to it. -/
structure Entry where
  operator : Kind
  body : Body

/-- A clause as an operator with a body. -/
def Clause.entry (clause : Clause) : Entry where
  operator := clause.kind
  body := match clause with
    | filter _ bindings => .filter bindings
    | raw _ text => .raw text
    | setTarget => .empty
    | misc payload => .payload payload

/-! ## What fragments leave behind -/

/-- What a fragment leaves behind others, its values numbered from `first` on: its own kind with
what it holds. The filter of a target that no filter stands before opens the chain. -/
def Fragment.entries (before : List Fragment) (first : Nat) (fragment : Fragment) : List Entry :=
  match fragment with
  | structured _ filter => [⟨fragment.kind, .filter (Draft.bindingsFrom first filter.keys)⟩]
  | raw _ text => [⟨fragment.kind, .raw text⟩]
  | setTarget filter _ =>
    let target : Entry := ⟨fragment.kind, .empty⟩
    if opened before then [target]
    else [⟨.structured .start, .filter (Draft.bindingsFrom first filter.keys)⟩, target]
  | misc payload => [⟨fragment.kind, .payload payload⟩]

theorem Fragment.map_entry_clauses (before : List Fragment) (first : Nat) (fragment : Fragment) :
    (fragment.clauses before first).map Clause.entry = fragment.entries before first := by
  cases fragment with
  | setTarget filter target =>
    simp only [clauses, entries]
    split <;> rfl
  | _ => rfl

namespace Draft

/-- **What fragments leave behind**, all of which were accepted. -/
def entries (fragments : List Fragment) : List Entry :=
  (places fragments).flatMap fun place =>
    place.2.entries place.1 (boundFields place.1).length

/-- **What fragments leave behind are the clauses of their draft.** -/
theorem map_entry_collect (fragments : List Fragment) :
    (collect fragments).clauses.map Clause.entry = entries fragments := by
  induction fragments using List.reverseRecOn with
  | nil => rfl
  | append_singleton before fragment ih =>
    have hlength : (collect before).params.length = (boundFields before).length := by
      simp [collect_params]
    rw [collect_append_singleton, collect_add_clauses, List.map_append, ih, hlength,
      Fragment.map_entry_clauses, entries, entries, places_append_singleton, List.flatMap_append,
      List.flatMap_singleton]

end Draft

/-! ## Compilers with guards -/

namespace Sql

variable (screen : Screen) (draft : Draft)

/-- The effect of the condition of an operator. -/
def Parts.extendCondition (parts : Parts) (operator : Kind) (link : Link) :
    Body → Except BackendError Parts
  | .filter [] => .ok parts
  | .filter bindings => do
    let condition ← filterText screen draft bindings
    return { parts with conditions := parts.conditions ++ [(link, condition)] }
  | .raw text => .ok { parts with conditions := parts.conditions ++ [(link, text.toList)] }
  | .payload _ | .empty =>
    .error (.unsupportedClause operator "filter clause without a predicate")

/-- **The effect of an operator with a body.** -/
def Parts.extendEntry (parts : Parts) (entry : Entry) : Except BackendError Parts :=
  match entry.operator with
  | .structured link | .raw link =>
    parts.extendCondition screen draft entry.operator link entry.body
  | .setTarget => .ok parts
  | .misc =>
    let refusal := .error (.unsupportedClause entry.operator "expected a screened SQL string")
    match entry.body with
    | .payload (.string text) =>
      if screen.flagsText text then refusal
      else .ok { parts with trailing := parts.trailing ++ [Unicode.trim text.toList] }
    | _ => refusal
  | .unknown => .error (.unsupportedClause entry.operator "unknown operator")

/-- **The compiled query of operators with bodies**, for the target and with the values of a
draft. -/
def compileEntries (entries : List Entry) : Except BackendError CompiledQuery :=
  match draft.output with
  | none => .error (.compile "query has no target table")
  | some target => do
    let parts ← entries.foldlM (Parts.extendEntry screen draft) {}
    let table ← quoteName screen target.name
    return ⟨String.ofList (parts.text table), draft.params, false⟩

variable {screen draft}

theorem Parts.extendEntry_entry (parts : Parts) (clause : Clause) :
    parts.extendEntry screen draft clause.entry = parts.extend screen draft clause := by
  cases clause with
  | filter link bindings => cases bindings <;> rfl
  | misc payload => cases payload <;> rfl
  | _ => rfl

/-- **On the clauses of a draft the guards have no work.** -/
theorem compileEntries_map_entry :
    compileEntries screen draft (draft.clauses.map Clause.entry) = compile screen draft := by
  rw [compileEntries, compile, statement]
  cases draft.output with
  | none => rfl
  | some target =>
    simp only [List.foldlM_map, Parts.extendEntry_entry]
    cases draft.clauses.foldlM (Parts.extend screen draft) {} with
    | error error => rfl
    | ok parts => cases quoteName screen target.name <;> rfl

end Sql

namespace Plan

/-- The predicate of the condition of an operator, if it has one. -/
def predicateOf (operator : Kind) : Body → Except BackendError (Option Predicate)
  | .filter [] => .ok none
  | .filter bindings => .ok (some (.ofBindings bindings))
  | .raw text =>
    match Predicate.ofText? text with
    | some predicate => .ok (some predicate)
    | none => .error (.compile ("cannot parse filter '" ++ text ++ "'"))
  | .payload _ | .empty =>
    .error (.unsupportedClause operator "filter clause without a predicate")

/-- **A plan with an operator with a body added.** -/
def extendEntry (plan : Plan) (entry : Entry) : Except BackendError Plan :=
  match entry.operator with
  | .structured link | .raw link => do
    match ← predicateOf entry.operator entry.body with
    | some predicate => return plan.addStep link predicate
    | none => return plan
  | .setTarget => .ok plan
  | .misc =>
    match entry.body with
    | .payload payload =>
      match Directive.ofJson? payload with
      | some directive => .ok (plan.direct directive)
      | none => .error .plan
    | _ => .error (.unsupportedClause entry.operator "misc clause without payload")
  | .unknown => .error (.unsupportedClause entry.operator "unknown operator")

/-- **The compiled query of operators with bodies**, for the target and with the values of a
draft. -/
def compileEntries (draft : Draft) (entries : List Entry) : Except BackendError CompiledQuery :=
  match draft.output with
  | none => .error (.compile "query has no target collection")
  | some target => do
    let plan ← entries.foldlM extendEntry (ofCollection target.name)
    return ⟨plan.toText, draft.params, false⟩

theorem extendEntry_entry (plan : Plan) (clause : Clause) :
    plan.extendEntry clause.entry = plan.extend clause := by
  cases clause with
  | filter link bindings => cases bindings <;> rfl
  | raw link text =>
    simp only [extendEntry, Clause.entry, Clause.kind, predicateOf, extend]
    cases Predicate.ofText? text <;> rfl
  | _ => rfl

/-- **On the clauses of a draft the guards have no work.** -/
theorem compileEntries_map_entry {draft : Draft} :
    compileEntries draft (draft.clauses.map Clause.entry) = compile draft := by
  rw [compileEntries, compile, ofDraft]
  cases draft.output with
  | none => rfl
  | some target =>
    simp only [List.foldlM_map, extendEntry_entry]
    cases draft.clauses.foldlM extend (ofCollection target.name) <;> rfl

end Plan

end ScreenedQuery
