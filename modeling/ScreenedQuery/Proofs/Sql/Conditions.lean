import ScreenedQuery.Engine.Basic
import ScreenedQuery.Proofs.Sql.Names
import ScreenedQuery.Sql.Evaluation

/-!
# What a statement is made of

A statement that is made at all is made of the name of its table, of one condition for each clause
that has one, and of the payloads. Here all of them are given without the checks on the way.

## Main definitions

* `Sql.testText`, `Sql.conditionOf?`: the conditions of a binding and of a clause
* `Sql.conditions`, `Sql.payloads`: the conditions and the payloads of a draft
* `Sql.headText`, `Sql.trailingText`: a statement up to the end of its condition, and behind it

## Main results

* `Sql.statement_eq_ok`: the statement of a draft, and what is known of its names
-/

namespace ScreenedQuery.Sql

variable {screen : Screen} {draft : Draft}

/-- The condition on a field that has a value. -/
def testText (draft : Draft) (binding : Binding) : List Char :=
  let relation :=
    if draft.param? binding.placeholder = some .null then [' ', 'I', 'S', ' '] else [' ', '=', ' ']
  quoteParts binding.field.toList ++ relation ++ binding.placeholder.marker.toList

/-- The condition on the fields of a filter. -/
def testsText (draft : Draft) (bindings : List Binding) : List Char :=
  joinWith [' ', 'A', 'N', 'D', ' '] (bindings.map (testText draft))

/-- **The condition of a clause** with its link, if the clause has one. -/
def conditionOf? (draft : Draft) : Clause → Option (Link × List Char)
  | .filter _ [] => none
  | .filter link bindings => some (link, testsText draft bindings)
  | .raw link text => some (link, text.toList)
  | _ => none

/-- The text behind the condition that a clause brings. -/
def payloadOf? : Clause → Option (List Char)
  | .misc (.string text) => some (Unicode.trim text.toList)
  | _ => none

/-- **The conditions of a draft**, in the order of its clauses. -/
def conditions (draft : Draft) : List (Link × List Char) :=
  draft.clauses.filterMap (conditionOf? draft)

/-- The payloads of a draft, in the order of its clauses. -/
def payloads (draft : Draft) : List (List Char) := draft.clauses.filterMap payloadOf?

/-- A statement up to the end of its condition. -/
def headText (draft : Draft) (target : Target) : List Char :=
  "SELECT * FROM ".toList ++ quoteParts target.name.toList ++ whereText (conditions draft)

/-- The text of a statement behind its condition. -/
def trailingText (draft : Draft) : List Char := (payloads draft).flatMap (' ' :: ·)

/-- **A binding that can be written**: the screen passes its field, and it has a value. -/
structure Writable (screen : Screen) (draft : Draft) (binding : Binding) : Prop where
  field : screen.flagsField binding.field = false
  value : (draft.param? binding.placeholder).isSome

/-! ## Steps of a statement -/

theorem quoteName_eq_ok {name : String} {text : List Char} (h : quoteName screen name = .ok text) :
    screen.flagsField name = false ∧ text = quoteParts name.toList := by
  unfold quoteName at h
  split at h
  · exact nomatch h
  · rename_i hflags
    exact ⟨by simpa using hflags, (Except.ok.inj h).symm⟩

theorem bindingText_eq_ok {binding : Binding} {text : List Char}
    (h : bindingText screen draft binding = .ok text) :
    Writable screen draft binding ∧ text = testText draft binding := by
  unfold bindingText at h
  dsimp only at h
  split at h
  · exact nomatch h
  · rename_i value hvalue
    obtain ⟨name, hname, htext⟩ := bind_eq_ok h
    obtain ⟨hfield, rfl⟩ := quoteName_eq_ok hname
    obtain rfl := Except.ok.inj htext
    refine ⟨⟨hfield, by simp [hvalue]⟩, ?_⟩
    simp [testText, hvalue]

theorem mapM_bindingText_eq_ok {bindings : List Binding} {texts : List (List Char)}
    (h : bindings.mapM (bindingText screen draft) = .ok texts) :
    (∀ binding ∈ bindings, Writable screen draft binding) ∧
      texts = bindings.map (testText draft) := by
  obtain ⟨hwritable, htexts⟩ := (List.forall₂_and_left _ _).mp
    ((mapM_eq_ok_iff.mp h).imp fun _ _ => bindingText_eq_ok)
  refine ⟨hwritable, ?_⟩
  rw [← List.forall₂_eq_eq_eq, List.forall₂_map_right_iff]
  exact htexts.flip

theorem filterText_eq_ok {bindings : List Binding} {text : List Char}
    (h : filterText screen draft bindings = .ok text) :
    (∀ binding ∈ bindings, Writable screen draft binding) ∧ text = testsText draft bindings := by
  unfold filterText at h
  cases htexts : bindings.mapM (bindingText screen draft) with
  | error error => exact nomatch htexts ▸ h
  | ok texts =>
    obtain ⟨hall, rfl⟩ := mapM_bindingText_eq_ok htexts
    rw [htexts] at h
    exact ⟨hall, (Except.ok.inj h).symm⟩

/-- **A clause that does not fail** adds its condition and its payload, and its bindings can be
written. -/
theorem extend_eq_ok {parts next : Parts} {clause : Clause}
    (h : parts.extend screen draft clause = .ok next) :
    next.conditions = parts.conditions ++ (conditionOf? draft clause).toList ∧
      next.trailing = parts.trailing ++ (payloadOf? clause).toList ∧
      ∀ binding ∈ clause.bindings, Writable screen draft binding := by
  cases clause with
  | filter link bindings =>
    -- A filter without fields adds nothing.
    cases bindings with
    | nil =>
      obtain rfl := Except.ok.inj h
      simp [conditionOf?, payloadOf?, Clause.bindings]
    | cons binding bindings =>
      obtain ⟨text, htext, h⟩ := bind_eq_ok h
      obtain ⟨hall, rfl⟩ := filterText_eq_ok htext
      obtain rfl := Except.ok.inj h
      exact ⟨rfl, by simp [payloadOf?], hall⟩
  | raw link text =>
    obtain rfl := Except.ok.inj h
    simp [conditionOf?, payloadOf?, Clause.bindings]
  | setTarget =>
    obtain rfl := Except.ok.inj h
    simp [conditionOf?, payloadOf?, Clause.bindings]
  | misc payload =>
    -- Of the payloads only texts do not fail, if the screen passes them.
    cases payload with
    | string text =>
      simp only [Parts.extend] at h
      split at h
      · exact nomatch h
      · obtain rfl := Except.ok.inj h
        simp [conditionOf?, payloadOf?, Clause.bindings]
    | _ => exact nomatch h

theorem foldlM_extend_eq_ok {parts last : Parts} {clauses : List Clause}
    (h : clauses.foldlM (Parts.extend screen draft) parts = .ok last) :
    last.conditions = parts.conditions ++ clauses.filterMap (conditionOf? draft) ∧
      last.trailing = parts.trailing ++ clauses.filterMap payloadOf? ∧
      ∀ clause ∈ clauses, ∀ binding ∈ clause.bindings, Writable screen draft binding := by
  induction clauses generalizing parts with
  | nil =>
    obtain rfl := Except.ok.inj h
    simp
  | cons clause clauses ih =>
    rw [List.foldlM_cons] at h
    -- The first clause, and then the others behind what it has added.
    obtain ⟨next, hnext, h⟩ := bind_eq_ok h
    obtain ⟨hconditions, htrailing, hwritable⟩ := extend_eq_ok hnext
    obtain ⟨hlastConditions, hlastTrailing, hall⟩ := ih h
    rw [hlastConditions, hlastTrailing, hconditions, htrailing, List.forall_mem_cons]
    refine ⟨?_, ?_, hwritable, hall⟩
    · cases hclause : conditionOf? draft clause <;> simp [hclause]
    · cases hclause : payloadOf? clause <;> simp [hclause]

theorem text_eq (parts : Parts) (table : List Char) :
    parts.text table = "SELECT * FROM ".toList ++ table ++ whereText parts.conditions ++
      parts.trailing.flatMap (' ' :: ·) := rfl

/-- **The statement of a draft.** A draft whose statement is made has a target, its conditions and
payloads follow the name of the target, and all names that are written have passed the screen. -/
theorem statement_eq_ok {text : List Char} (h : statement screen draft = .ok text) :
    ∃ target, draft.output = some target ∧ screen.flagsField target.name = false ∧
      (∀ clause ∈ draft.clauses, ∀ binding ∈ clause.bindings, Writable screen draft binding) ∧
      text = headText draft target ++ (payloads draft).flatMap (' ' :: ·) := by
  rw [statement] at h
  cases houtput : draft.output with
  | none => simp [houtput] at h
  | some target =>
    rw [houtput] at h
    -- First the clauses are gone through, then the name of the table is written.
    obtain ⟨parts, hparts, h⟩ := bind_eq_ok h
    obtain ⟨table, htable, h⟩ := bind_eq_ok h
    obtain ⟨hname, rfl⟩ := quoteName_eq_ok htable
    obtain ⟨hconditions, htrailing, hwritable⟩ := foldlM_extend_eq_ok hparts
    rw [List.nil_append] at hconditions htrailing
    refine ⟨target, rfl, hname, hwritable, ?_⟩
    obtain rfl := Except.ok.inj h
    rw [text_eq, hconditions, htrailing]
    rfl

theorem compile_eq_ok {query : CompiledQuery} (h : compile screen draft = .ok query) :
    statement screen draft = .ok query.text.toList := by
  unfold compile at h
  cases htext : statement screen draft with
  | error error => exact nomatch htext ▸ h
  | ok text =>
    rw [htext] at h
    rw [← Except.ok.inj h, String.toList_ofList]

/-- An engine whose draft this backend compiles has refused nothing, and the text is the statement
of its draft. -/
theorem engine_compile_eq_ok {engine : Engine} {database : Database} {tally : Tally}
    {query : CompiledQuery} (hbackend : engine.backend = some (backend screen database))
    (h : (engine.compile tally).1 = .ok query) :
    engine.draft.poisoned = false ∧ statement screen engine.draft = .ok query.text.toList := by
  rw [Engine.compile, hbackend] at h
  dsimp only at h
  split at h
  · exact nomatch h
  · rename_i hpoisoned
    refine ⟨by simpa using hpoisoned, ?_⟩
    cases hcompiled : (backend screen database).compile engine.draft with
    | error error => exact nomatch hcompiled ▸ h
    | ok compiled =>
      have htext : statement screen engine.draft = .ok compiled.text.toList :=
        compile_eq_ok hcompiled
      rw [hcompiled] at h
      rw [← Except.ok.inj h]
      exact htext

/-- The parameters of a query are the values of the draft. -/
theorem engine_compile_params {engine : Engine} {database : Database} {tally : Tally}
    {query : CompiledQuery} (hbackend : engine.backend = some (backend screen database))
    (h : (engine.compile tally).1 = .ok query) : query.params = engine.draft.params := by
  rw [Engine.compile, hbackend] at h
  dsimp only at h
  split at h
  · exact nomatch h
  · cases hcompiled : (backend screen database).compile engine.draft with
    | error error => exact nomatch hcompiled ▸ h
    | ok compiled =>
      have hparams : compiled.params = engine.draft.params := compile_params hcompiled
      rw [hcompiled] at h
      rw [← Except.ok.inj h]
      exact hparams

/-! ## Closed texts of statements -/

theorem isFieldName_of_flagsField {name : String} (h : screen.flagsField name = false) :
    Screen.isFieldName name.toList = true := by
  simp only [Screen.flagsField, Bool.or_eq_false_iff, Bool.not_eq_false'] at h
  exact h.1

/-- The condition of a binding that can be written is closed. -/
theorem Writable.closed_testText {binding : Binding} (h : Writable screen draft binding) :
    Closed (testText draft binding) := by
  have hname := (isQuotedName_quoteParts (isFieldName_of_flagsField h.field)).closed
  unfold testText
  refine (hname.append ?_).append (closed_marker _)
  split <;> decide

theorem closed_testsText {bindings : List Binding}
    (h : ∀ binding ∈ bindings, Writable screen draft binding) :
    Closed (testsText draft bindings) := by
  refine joinWith_induction .nil (fun _ _ => .append) (by decide) ?_
  rw [List.forall_mem_map]
  exact fun binding hbinding => (h binding hbinding).closed_testText

/-- **The conditions of a draft are closed** when those of its raw filters are. -/
theorem closed_conditions
    (hwritable : ∀ clause ∈ draft.clauses, ∀ binding ∈ clause.bindings,
      Writable screen draft binding)
    (hraw : ∀ link text, .raw link text ∈ draft.clauses → Closed text.toList) :
    ∀ condition ∈ conditions draft, Closed condition.2 := by
  intro condition hcondition
  obtain ⟨clause, hclause, hsome⟩ := List.mem_filterMap.mp hcondition
  cases clause with
  | filter link bindings =>
    cases bindings with
    | nil => exact nomatch hsome
    | cons binding bindings =>
      obtain rfl := Option.some.inj hsome
      exact closed_testsText (hwritable _ hclause)
  | raw link text =>
    obtain rfl := Option.some.inj hsome
    exact hraw link text hclause
  | setTarget => exact nomatch hsome
  | misc payload => exact nomatch hsome

theorem closed_connective (link : Link) : Closed (connective link) := by
  cases link <;> decide

theorem closed_left {joined : List Char} (h : Closed joined) (whole : Bool) (link : Link) :
    Closed ((if whole then joined else parenthesize joined) ++ connective link) := by
  refine .append ?_ (closed_connective link)
  cases whole with
  | true => exact h
  | false => exact h.parenthesize

theorem closed_joinFrom {joined : List Char} {whole : Bool} {rest : List (Link × List Char)}
    (hjoined : Closed joined) (h : ∀ condition ∈ rest, Closed condition.2) :
    Closed (joinFrom joined whole rest) := by
  induction rest generalizing joined whole with
  | nil => exact hjoined
  | cons condition rest ih =>
    rw [List.forall_mem_cons] at h
    exact ih ((closed_left hjoined whole _).append h.1.parenthesize) h.2

/-- Conditions that are closed are closed when they are joined. -/
theorem closed_joinConditions {conditions : List (Link × List Char)}
    (h : ∀ condition ∈ conditions, Closed condition.2) : Closed (joinConditions conditions) := by
  cases conditions with
  | nil => exact .nil
  | cons condition rest =>
    rw [List.forall_mem_cons] at h
    exact closed_joinFrom h.1.parenthesize h.2

end ScreenedQuery.Sql
