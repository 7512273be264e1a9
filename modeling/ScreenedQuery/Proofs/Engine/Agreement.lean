import ScreenedQuery.Proofs.Engine.Delivery
import ScreenedQuery.Proofs.Engine.Sync
import ScreenedQuery.Proofs.Plan.RoundTrip
import ScreenedQuery.Proofs.Sql.Selection

/-!
# The two backends agree

A table of a database and a collection can hold the same rows. Structured filters on the columns of
the table, with values that the store keeps as they are, then mean the same to both backends: a sync
has the same outcome, and an execution delivers the same rows in the same order, which are the
records that the draft selects.

## Main definitions

* `SameRows`: a table and a collection that hold the same rows
* `Fragment.Queries`: a structured filter on the columns of a table, or a target that names it

## Main results

* `Engine.sync_of_screen`: a sync depends on a backend by its screen only
* `Engine.delivery_statement`, `Engine.delivery_plan`: what the two backends deliver
* `Engine.backends_agree`: the same outcomes and the same rows
-/

namespace ScreenedQuery

/-! ## Screens decide syncs -/

namespace Draft

variable {first second : Backend}

theorem accept_of_screen (htext : first.flagsText = second.flagsText)
    (hfield : first.flagsField = second.flagsField) (draft : Draft) (fragment : Fragment) :
    draft.accept (some first) fragment = draft.accept (some second) fragment := by
  obtain ⟨flagsText, flagsField, _, _⟩ := first
  obtain ⟨otherText, otherField, _, _⟩ := second
  obtain rfl : flagsText = otherText := htext
  obtain rfl : flagsField = otherField := hfield
  cases fragment <;> rfl

/-- **What is accepted depends on a backend by its screen only.** -/
theorem drain_of_screen (htext : first.flagsText = second.flagsText)
    (hfield : first.flagsField = second.flagsField) (draft : Draft) (fragments : List Fragment) :
    draft.drain (some first) fragments = draft.drain (some second) fragments := by
  induction fragments generalizing draft with
  | nil => rfl
  | cons fragment fragments ih =>
    rw [drain, drain, accept_of_screen htext hfield]
    simp only [ih]

end Draft

/-- **A sync depends on a backend by its screen only.** -/
theorem Engine.sync_of_screen {first second : Backend} (htext : first.flagsText = second.flagsText)
    (hfield : first.flagsField = second.flagsField) (engine : Engine) (queue : Queue Fragment)
    (tally : Tally) :
    { engine with backend := some second }.sync queue tally =
      let synced := { engine with backend := some first }.sync queue tally
      { synced with engine := { synced.engine with backend := some second } } := by
  unfold sync
  simp only [Draft.drain_of_screen htext hfield]
  split <;> rfl

/-! ## The same rows -/

/-- **A table of a database and a collection that hold the same rows**, under names without dots
that the screen passes. The cells of the table are values that the store keeps as they are. -/
structure SameRows (screen : Screen) (table : Sql.Table) (database : Sql.Database)
    (collections : Collections) : Prop where
  found : database.table? [table.name.toList] = some table
  collection : collections.get? table.name = some (table.rows.map table.record)
  wellFormed : table.WellFormed
  exact : table.IsExact
  name : screen.flagsField table.name = false ∧ '.' ∉ table.name.toList
  columns : ∀ column ∈ table.columns, screen.flagsField column = false ∧ '.' ∉ column.toList

/-- **A structured filter on the columns of a table**, with values that the store keeps as they
are, or a target that names the table. -/
def Fragment.Queries (table : Sql.Table) : Fragment → Prop
  | structured _ filter => ∀ entry ∈ filter.entries, entry.1 ∈ table.columns ∧ entry.2.IsExact
  | setTarget filter target =>
    (∀ entry ∈ filter.entries, entry.1 ∈ table.columns ∧ entry.2.IsExact) ∧
      target.name = table.name
  | _ => False

theorem Fragment.Queries.isStructured {table : Sql.Table} {fragment : Fragment}
    (h : fragment.Queries table) :
    fragment.IsStructured fun field value => field ∈ table.columns ∧ value.IsExact := by
  cases fragment with
  | structured link filter => exact h
  | setTarget filter target => exact h.1
  | raw link text => exact absurd h id
  | misc payload => exact absurd h id

namespace Draft

variable {table : Sql.Table} {fragments : List Fragment}

/-- The bindings of such fragments are of columns, with values that the store keeps as they are. -/
theorem collect_isOver (h : ∀ fragment ∈ fragments, fragment.Queries table) :
    (collect fragments).IsStructured (Sql.IsOver table (collect fragments).params) := by
  have hcollect := collect_isStructured fun fragment hfragment =>
    (h fragment hfragment).isStructured
  refine hcollect.imp fun binding hbinding => ?_
  obtain ⟨value, hvalue, hcolumn, hexact⟩ := hbinding
  exact ⟨hcolumn, value, hvalue, hexact⟩

/-- The target of such fragments names the table. -/
theorem output_collect (h : ∀ fragment ∈ fragments, fragment.Queries table) {target : Target}
    (houtput : (collect fragments).output = some target) : target.name = table.name := by
  induction fragments using List.reverseRecOn with
  | nil => simp [empty] at houtput
  | append_singleton before fragment ih =>
    rw [List.forall_mem_append, List.forall_mem_singleton] at h
    rw [collect_append_singleton] at houtput
    cases fragment with
    | structured link filter => exact ih h.1 houtput
    | setTarget filter last =>
      obtain rfl : last = target := Option.some.inj houtput
      exact h.2.2
    | raw link text => exact absurd h.2 id
    | misc payload => exact absurd h.2 id

end Draft

/-- The plan of a draft the bindings of which have values is read back. -/
theorem Plan.isPrintable_of_isStructured {draft : Draft}
    (hbound : draft.IsStructured (Binding.IsBound draft.params))
    (hcount : draft.params.length ≤ UInt64.size) (name : String) :
    (Plan.mk name (draft.clauses.filterMap Clause.step?) none none).IsPrintable := by
  refine ⟨fun step hstep => ?_, by simp⟩
  obtain ⟨clause, hclause, hsome⟩ := List.mem_filterMap.mp hstep
  rcases (hbound clause hclause).cases with
    (rfl | ⟨link, rfl⟩) | ⟨link, first, bindings, rfl, hall⟩
  · simp [Clause.step?] at hsome
  · simp [Clause.step?] at hsome
  · obtain rfl := Option.some.inj hsome
    intro entry hentry
    obtain ⟨binding, hbinding, rfl⟩ := List.mem_map.mp hentry
    obtain ⟨value, hvalue⟩ := Option.isSome_iff_exists.mp (hall binding hbinding)
    exact lt_of_lt_of_le (List.getElem?_eq_some_iff.mp hvalue).1 hcount

/-- The plan of a draft without raw filters has no numbers that could change. -/
theorem Plan.reread_of_isStructured {draft : Draft} {P : Binding → Prop}
    (h : draft.IsStructured P) (name : String) :
    (Plan.mk name (draft.clauses.filterMap Clause.step?) none none).reread =
      Plan.mk name (draft.clauses.filterMap Clause.step?) none none := by
  refine Plan.reread_eq_self fun step hstep => ?_
  obtain ⟨clause, hclause, hsome⟩ := List.mem_filterMap.mp hstep
  rcases (h clause hclause).cases with (rfl | ⟨link, rfl⟩) | ⟨link, first, bindings, rfl, -⟩
  · simp [Clause.step?] at hsome
  · simp [Clause.step?] at hsome
  · obtain rfl := Option.some.inj hsome
    rfl

/-! ## What is delivered -/

namespace Engine

variable {screen : Screen} {table : Sql.Table} {database : Sql.Database}
  {collections : Collections} {engine : Engine} {fragments : List Fragment} {target : Target}

/-- The records of a table that a draft selects, in the order of the rows. -/
def selected (table : Sql.Table) (draft : Draft) : List Record :=
  (table.rows.map table.record).filter draft.selects

/-- **What a database delivers** for structured filters on the columns of a table. -/
theorem delivery_statement (hrows : SameRows screen table database collections)
    (hpoisoned : engine.draft.poisoned = false) (houtput : engine.draft.output = some target)
    (hname : target.name = table.name)
    (hover : engine.draft.IsStructured (Sql.IsOver table engine.draft.params))
    (hnumbered : engine.draft.bindings.map (·.placeholder.index) =
      List.range engine.draft.params.length)
    {limit : Option Nat} (hlimit : Sql.withinLimit limit engine.draft.params.length = true)
    (hbackend : engine.backend = some (Sql.backendWithin limit screen database)) :
    engine.delivery = .ok (target, selected table engine.draft) := by
  have hflags : screen.flagsField target.name = false := by rw [hname, hrows.name.1]
  have hdot : '.' ∉ target.name.toList := by rw [hname]; exact hrows.name.2
  have hfound : database.table? [target.name.toList] = some table := by rw [hname, hrows.found]
  have hwritable : engine.draft.IsStructured (Sql.Writable screen engine.draft) := by
    refine hover.imp fun binding hbinding => ?_
    obtain ⟨hcolumn, value, hvalue, -⟩ := hbinding
    exact ⟨(hrows.columns _ hcolumn).1, by rw [Draft.param?, hvalue]; rfl⟩
  have hcompile : (Sql.backendWithin limit screen database).compile engine.draft =
      .ok ⟨String.ofList (Sql.headText engine.draft target), engine.draft.params, false⟩ := by
    rw [Sql.compile_backendWithin]
    unfold Sql.compile
    rw [Sql.statement_of_isStructured houtput hflags hwritable]
    rfl
  have hexecute := Sql.executeWithin_of_isStructured hfound hrows.wellFormed hrows.exact hflags
    hdot hrows.columns hover hnumbered hlimit engine.transactional
  rw [← Sql.execute_backendWithin limit screen database] at hexecute
  exact delivery_eq_ok hbackend houtput hpoisoned hcompile hexecute

/-- **What collections deliver** for the same filters. -/
theorem delivery_plan {sorting : Sorting Record} (hrows : SameRows screen table database collections)
    (hpoisoned : engine.draft.poisoned = false) (houtput : engine.draft.output = some target)
    (hname : target.name = table.name)
    (hover : engine.draft.IsStructured (Sql.IsOver table engine.draft.params))
    (hcount : engine.draft.params.length ≤ UInt64.size)
    (hbackend : engine.backend = some (Plan.backend screen collections sorting)) :
    engine.delivery = .ok (target, selected table engine.draft) := by
  have hcollection : collections.get? target.name = some (table.rows.map table.record) := by
    rw [hname, hrows.collection]
  have hbound : engine.draft.IsStructured (Binding.IsBound engine.draft.params) := by
    refine hover.imp fun binding hbinding => ?_
    obtain ⟨-, value, hvalue, -⟩ := hbinding
    rw [Binding.IsBound, hvalue]
    rfl
  generalize hplan : Plan.mk target.name (engine.draft.clauses.filterMap Clause.step?) none none =
    plan
  have hcompile : (Plan.backend screen collections sorting).compile engine.draft =
      .ok ⟨plan.toText, engine.draft.params, false⟩ := by
    rw [Plan.compile_backend, Plan.compile, Plan.ofDraft_of_isStructured houtput hover, hplan]
    rfl
  have hexecute : (Plan.backend screen collections sorting).execute
      ⟨plan.toText, engine.draft.params, engine.transactional⟩ =
        .ok (selected table engine.draft) := by
    have hprintable : plan.IsPrintable :=
      hplan ▸ Plan.isPrintable_of_isStructured hbound hcount target.name
    have hreread : plan.reread = plan := hplan ▸ Plan.reread_of_isStructured hbound target.name
    rw [Plan.execute_backend, Plan.execute, Plan.ofText?_toText hprintable, hreread, ← hplan]
    exact Plan.evaluate_of_isStructured hbound hcollection
  exact delivery_eq_ok hbackend houtput hpoisoned hcompile hexecute

/-- **The two backends agree on structured filters.** Take a table and a collection that hold the
same rows, and fragments that filter on the columns of the table, each with whichever link, and
name it as their target. A sync of them through the database and one through the collections, with
the same screen, have the same outcome and leave the same draft, queue and tally. If they succeed
and there is a target, then both executions succeed and deliver the same rows in the same order to
the same buffer: the records that the draft selects.

The store may have any bound for the numbers of parameters, or none. The parameters have to stay
within it, and no more of them than 64 bits can count. -/
theorem backends_agree (hrows : SameRows screen table database collections)
    (hfragments : ∀ fragment ∈ fragments, fragment.Queries table) (limit : Option Nat)
    (sorting : Sorting Record) (engine : Engine) (tally : Tally) :
    let first := { engine with
      draft := .empty
      backend := some (Sql.backendWithin limit screen database) }.sync ⟨fragments⟩ tally
    let second := { engine with
      draft := .empty
      backend := some (Plan.backend screen collections sorting) }.sync ⟨fragments⟩ tally
    first.outcome = second.outcome ∧ first.engine.draft = second.engine.draft ∧
      first.queue = second.queue ∧ first.tally = second.tally ∧
      (first.outcome = .ok () → ∀ target, first.engine.draft.output = some target →
        Sql.withinLimit limit first.engine.draft.params.length = true →
        first.engine.draft.params.length ≤ UInt64.size → ∀ ledger,
          (first.engine.execute ledger).1 = .ok () ∧ (second.engine.execute ledger).1 = .ok () ∧
          (first.engine.execute ledger).2.buffers =
            ledger.buffers.deliver target.buffer (selected table first.engine.draft) ∧
          (second.engine.execute ledger).2.buffers =
            ledger.buffers.deliver target.buffer (selected table first.engine.draft)) := by
  intro first second
  have hsync : second = { first with engine := { first.engine with
      backend := some (Plan.backend screen collections sorting) } } :=
    @sync_of_screen (Sql.backendWithin limit screen database)
      (Plan.backend screen collections sorting) rfl rfl { engine with draft := .empty } ⟨fragments⟩ tally
  rw [hsync]
  refine ⟨rfl, rfl, rfl, rfl, fun hok target houtput hlimit hcount ledger => ?_⟩
  -- All fragments were admitted, and the draft is theirs.
  have hempty : ({ engine with
      draft := .empty
      backend := some (Sql.backendWithin limit screen database) } : Engine).draft =
        .collect [] := rfl
  have hall := admitsAll_of_sync_eq_ok hempty hok
  have hengine := (sync_of_admitsAll hempty hall tally).2
  have hdraft : first.engine.draft = .collect fragments := congrArg Engine.draft hengine
  have hbackend : first.engine.backend = some (Sql.backendWithin limit screen database) :=
    congrArg Engine.backend hengine
  have hname : target.name = table.name :=
    Draft.output_collect hfragments (by rw [← hdraft, houtput])
  have hpoisoned : first.engine.draft.poisoned = false := by rw [hdraft, Draft.collect_poisoned]
  have hover : first.engine.draft.IsStructured
      (Sql.IsOver table first.engine.draft.params) := by
    rw [hdraft]
    exact Draft.collect_isOver hfragments
  have hnumbered : first.engine.draft.bindings.map (·.placeholder.index) =
      List.range first.engine.draft.params.length := by
    rw [hdraft]
    exact Draft.collect_numbered fragments
  obtain ⟨hfirst, hfirstBuffers⟩ := execute_of_delivery
    (delivery_statement hrows hpoisoned houtput hname hover hnumbered hlimit hbackend) ledger
  obtain ⟨hsecond, hsecondBuffers⟩ := execute_of_delivery
    (@delivery_plan screen table database collections { first.engine with
      backend := some (Plan.backend screen collections sorting) } target sorting hrows hpoisoned
      houtput hname hover hcount rfl) ledger
  exact ⟨hfirst, hsecond, hfirstBuffers, hsecondBuffers⟩

/-- Of three people the one is asked for whose age is null and whose name is Bob. -/
theorem backends_agree_people :
    let table : Sql.Table := ⟨"people", ["name", "age"],
      [[.string "Ada", .int 36], [.string "Bob", .null], [.string "Cyd", .null]]⟩
    let collections : Collections := .ofList [("people", table.rows.map table.record)]
    let fragments : List Fragment := [.structured .start (.ofList [("age", .null)]),
      .structured .and (.ofList [("name", .string "Bob")]), .find ⟨"people", 0⟩]
    let engine : Engine := {}
    let first := { engine with
      draft := .empty
      backend := some (Sql.backendWithin none {} [table]) }.sync ⟨fragments⟩ {}
    let second := { engine with
      draft := .empty
      backend := some (Plan.backend {} collections) }.sync ⟨fragments⟩ {}
    let bob : Record := .ofList [("name", .string "Bob"), ("age", .null)]
    SameRows {} table [table] collections ∧ (∀ fragment ∈ fragments, fragment.Queries table) ∧
      first.outcome = .ok () ∧ second.outcome = .ok () ∧
      (first.engine.execute {}).2.buffers.rows 0 = [bob] ∧
      (second.engine.execute {}).2.buffers.rows 0 = [bob] := by
  intro table collections fragments engine
  have hrows : SameRows {} table [table] collections := by
    refine ⟨by simp [table, Sql.Database.table?, Sql.sameName], rfl, by decide, ?_, ?_, ?_⟩
    · unfold Sql.Table.IsExact
      decide
    · decide
    · decide
  have hfragments : ∀ fragment ∈ fragments, fragment.Queries table := by
    simp only [fragments, List.forall_mem_cons]
    refine ⟨?_, ?_, ⟨by simp [FieldMap.empty], rfl⟩, by simp⟩
    · change ∀ entry ∈ (FieldMap.ofList [("age", Value.null)]).entries,
        entry.1 ∈ ["name", "age"] ∧ entry.2.IsExact
      decide
    · change ∀ entry ∈ (FieldMap.ofList [("name", Value.string "Bob")]).entries,
        entry.1 ∈ ["name", "age"] ∧ entry.2.IsExact
      decide
  have hagree := backends_agree hrows hfragments none .merge engine {}
  dsimp only at hagree ⊢
  generalize hfirst : Engine.sync _ _ _ = first at hagree ⊢
  generalize Engine.sync _ _ _ = second at hagree ⊢
  have hdraft : first.engine.draft =
      ⟨[.filter .start [⟨"age", ⟨0⟩⟩], .filter .and [⟨"name", ⟨1⟩⟩], .setTarget],
        [.null, .string "Bob"], .setTarget, .setTarget, true, some ⟨"people", 0⟩, false⟩ := by
    rw [← hfirst]
    rfl
  have hok : first.outcome = .ok () := by
    rw [← hfirst]
    rfl
  have houtput : first.engine.draft.output = some ⟨"people", 0⟩ := by rw [hdraft]
  have hcount : first.engine.draft.params.length ≤ UInt64.size := by
    rw [hdraft]
    decide
  have hselected : selected table first.engine.draft =
      [.ofList [("name", .string "Bob"), ("age", .null)]] := by
    rw [hdraft]
    decide
  obtain ⟨houtcome, -, -, -, hexecute⟩ := hagree
  obtain ⟨-, -, hdelivered, hother⟩ := hexecute hok ⟨"people", 0⟩ houtput rfl hcount {}
  refine ⟨hrows, hfragments, hok, houtcome.symm.trans hok, ?_, ?_⟩
  · rw [hdelivered, Buffers.rows_deliver_self, hselected]
    rfl
  · rw [hother, Buffers.rows_deliver_self, hselected]
    rfl

end Engine

end ScreenedQuery
