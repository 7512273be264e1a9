import ScreenedQuery.Backend
import ScreenedQuery.Screen.Basic
import ScreenedQuery.Unicode.Blank

/-!
# Statements of drafts

A draft becomes one `SELECT` statement. Values stand in it only as placeholders and names only
between double quotes. Every filter is put between parentheses, and the filters are joined from the
left, so that each one acts on all that stand before it. Payloads are texts that follow the
condition.

## Main definitions

* `Sql.quoteName`: a dotted name between quotes
* `Sql.filterText`: the condition of a structured filter
* `Sql.joinConditions`: conditions joined from the left
* `Sql.Parts.extend`: the effect of a clause
* `Sql.compile`: the compiled query of a draft

## Main results

* `Sql.quoteName_error_iff`: the names that are refused
* `Sql.compile_params`: the parameters are those of the draft
-/

namespace ScreenedQuery.Sql

/-- A dotted name with each of its parts between double quotes. -/
def quoteParts (name : List Char) : List Char :=
  joinWith ['.'] ((splitParts '.' name).map fun part => '"' :: (part ++ ['"']))

/-- **A name between quotes**, unless the screen flags it. -/
def quoteName (screen : Screen) (name : String) : Except BackendError (List Char) :=
  if screen.flagsField name then .error (.compile ("'" ++ name ++ "' is not a valid identifier"))
  else .ok (quoteParts name.toList)

/-- The names that are refused are those that the screen flags. -/
theorem quoteName_error_iff {screen : Screen} {name : String} :
    (∃ error, quoteName screen name = .error error) ↔ screen.flagsField name := by
  unfold quoteName
  split <;> simp [*]

/-- The condition on one field. Null is compared with `IS`. -/
def bindingText (screen : Screen) (draft : Draft) (binding : Binding) :
    Except BackendError (List Char) :=
  let marker := binding.placeholder.marker
  match draft.param? binding.placeholder with
  | none => .error (.compile ("placeholder " ++ marker ++ " has no bound value"))
  | some value => do
    let name ← quoteName screen binding.field
    let relation := if value = .null then [' ', 'I', 'S', ' '] else [' ', '=', ' ']
    return name ++ relation ++ marker.toList

/-- **The condition of a structured filter**: all its fields. -/
def filterText (screen : Screen) (draft : Draft) (bindings : List Binding) :
    Except BackendError (List Char) :=
  (bindings.mapM (bindingText screen draft)).map (joinWith [' ', 'A', 'N', 'D', ' '])

/-- What a statement is made of. -/
structure Parts where
  /-- The conditions with their links, in order. -/
  conditions : List (Link × List Char) := []
  /-- The texts behind the condition. -/
  trailing : List (List Char) := []

/-- **The effect of a clause.** Filters without a field are left out, and payloads have to be
texts that the screen lets pass. -/
def Parts.extend (screen : Screen) (draft : Draft) (parts : Parts) :
    Clause → Except BackendError Parts
  | .filter _ [] => .ok parts
  | .filter link bindings => do
    let condition ← filterText screen draft bindings
    return { parts with conditions := parts.conditions ++ [(link, condition)] }
  | .raw link text =>
    .ok { parts with conditions := parts.conditions ++ [(link, text.toList)] }
  | .setTarget => .ok parts
  | .misc payload =>
    let refusal := .error (.unsupportedClause .misc "expected a screened SQL string")
    match payload with
    | .string text =>
      if screen.flagsText text then refusal
      else .ok { parts with trailing := parts.trailing ++ [Unicode.trim text.toList] }
    | _ => refusal

/-- A condition between parentheses. -/
def parenthesize (condition : List Char) : List Char := '(' :: (condition ++ [')'])

/-- The word between two conditions. -/
def connective : Link → List Char
  | .or => [' ', 'O', 'R', ' ']
  | _ => [' ', 'A', 'N', 'D', ' ']

/-- Joins further conditions to a text; `whole` tells whether the text is one condition only. -/
def joinFrom (joined : List Char) (whole : Bool) : List (Link × List Char) → List Char
  | [] => joined
  | (link, condition) :: rest =>
    -- One condition is between parentheses already, more than one are put between them.
    let left := if whole then joined else parenthesize joined
    joinFrom (left ++ connective link ++ parenthesize condition) false rest

/-- **Conditions joined from the left**, the link of the first one left out. -/
def joinConditions : List (Link × List Char) → List Char
  | [] => []
  | (_, condition) :: rest => joinFrom (parenthesize condition) true rest

/-- The condition of a statement behind its keyword; nothing if there is no condition. -/
def whereText (conditions : List (Link × List Char)) : List Char :=
  if conditions.isEmpty then [] else " WHERE ".toList ++ joinConditions conditions

def Parts.text (parts : Parts) (table : List Char) : List Char :=
  "SELECT * FROM ".toList ++ table ++ whereText parts.conditions ++
    parts.trailing.flatMap (' ' :: ·)

/-- **The statement of a draft.** -/
def statement (screen : Screen) (draft : Draft) : Except BackendError (List Char) :=
  match draft.output with
  | none => .error (.compile "query has no target table")
  | some target => do
    -- A clause that fails comes before a name of the table that fails.
    let parts ← draft.clauses.foldlM (Parts.extend screen draft) {}
    let table ← quoteName screen target.name
    return parts.text table

/-- The compiled query of a draft: its statement and its values. -/
def compile (screen : Screen) (draft : Draft) : Except BackendError CompiledQuery :=
  (statement screen draft).map fun text => ⟨String.ofList text, draft.params, false⟩

/-- The parameters of a compiled query are those of the draft. -/
theorem compile_params {screen : Screen} {draft : Draft} {query : CompiledQuery}
    (h : compile screen draft = .ok query) : query.params = draft.params := by
  unfold compile at h
  cases htext : statement screen draft with
  | error error => simp [htext, Except.map] at h
  | ok text =>
    simp only [htext, Except.map, Except.ok.injEq] at h
    simp [← h]

end ScreenedQuery.Sql
