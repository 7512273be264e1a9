import ScreenedQuery.Proofs.Number.Digits
import ScreenedQuery.Proofs.Sql.Groups

/-!
# The markers of a statement

A marker is a question mark outside of quoted runs, with the digits that follow it. The markers of a
statement are those of its bound values, each in the test of its field, and those that the raw
filters and the payloads bring along. The screen does not look at question marks, so that a marker
that is written in a raw filter stands among those of the bound values.

## Main definitions

* `Sql.markers`: the markers of a text
* `Sql.Origin`, `Sql.origins`: what the markers of a statement come from, clause by clause
* `Sql.Bears`: the markers of a text come from a row of origins

## Main results

* `Sql.markersFrom_append`: the markers of two texts one behind the other
* `Sql.bears_headText`: the markers up to the end of the condition
* `Sql.sync_compile_markers`: the markers of a query
-/

namespace ScreenedQuery.Sql

/-! ## Markers of texts -/

/-- The markers of the rest of a text, when a quoted run may stand open. -/
def markersFrom (quote : Option Char) : List Char → List (List Char)
  | [] => []
  | c :: text =>
    let rest := markersFrom (nextQuote quote c) text
    if quote = none ∧ c = '?' then ('?' :: text.takeWhile Char.isDigit) :: rest else rest

/-- **The markers of a text**: its question marks outside of quoted runs, each with the digits that
follow it. -/
def markers (text : List Char) : List (List Char) := markersFrom none text

theorem quoteAfter_append (quote : Option Char) (first second : List Char) :
    quoteAfter quote (first ++ second) = quoteAfter (quoteAfter quote first) second :=
  List.foldl_append

/-- The markers of two texts, where no digit at the start of the second one goes on with a marker of
the first. -/
theorem markersFrom_append {second : List Char} (h : second.takeWhile Char.isDigit = [])
    (quote : Option Char) (first : List Char) :
    markersFrom quote (first ++ second) =
      markersFrom quote first ++ markersFrom (quoteAfter quote first) second := by
  induction first generalizing quote with
  | nil => rfl
  | cons c first ih =>
    rw [List.cons_append, markersFrom, markersFrom, ih, takeWhile_append_of_eq_nil h]
    split <;> rfl

/-- Without a question mark there is no marker, and what stands behind keeps its own. -/
theorem markersFrom_append_of_not_mem {first : List Char} (h : '?' ∉ first)
    (quote : Option Char) (second : List Char) :
    markersFrom quote (first ++ second) = markersFrom (quoteAfter quote first) second := by
  induction first generalizing quote with
  | nil => rfl
  | cons c first ih =>
    rw [List.mem_cons, not_or] at h
    rw [List.cons_append, markersFrom, if_neg fun hmark => h.1 hmark.2.symm, ih h.2]
    rfl

theorem markersFrom_of_not_mem {text : List Char} (h : '?' ∉ text) (quote : Option Char) :
    markersFrom quote text = [] := by
  have := markersFrom_append_of_not_mem h quote []
  rwa [List.append_nil] at this

example : markers "a = ?12 AND '?3' <> ?".toList = [['?', '1', '2'], ['?']] := rfl

/-! ## What markers come from -/

/-- **What a marker comes from.** -/
inductive Origin
  /-- A bound value. -/
  | bound (binding : Binding)
  /-- A raw filter or a payload, in which the marker is written. -/
  | written (marker : List Char)

namespace Origin

/-- The marker as it stands in the statement. -/
def marker : Origin → List Char
  | bound binding => binding.placeholder.marker.toList
  | written marker => marker

/-- The bound value that a marker comes from. -/
def binding? : Origin → Option Binding
  | bound binding => some binding
  | written _ => none

/-- The markers that are written in a text. -/
def ofText (text : List Char) : List Origin := (markers text).map written

theorem map_marker_ofText (text : List Char) : (ofText text).map marker = markers text := by
  simp [ofText, Function.comp_def, marker]

theorem filterMap_binding?_ofText (text : List Char) : (ofText text).filterMap binding? = [] := by
  simp [ofText, binding?]

/-- What the markers of a clause come from, as far as they stand in a condition. -/
def ofClause : Clause → List Origin
  | .filter _ bindings => bindings.map bound
  | .raw _ text => ofText text.toList
  | _ => []

/-- The bound values among them are those of the clause. -/
theorem filterMap_binding?_ofClause (clause : Clause) :
    (ofClause clause).filterMap binding? = clause.bindings := by
  cases clause with
  | filter link bindings => simp [ofClause, Clause.bindings, Function.comp_def, binding?]
  | raw link text => exact filterMap_binding?_ofText text.toList
  | _ => rfl

end Origin

/-- **What the markers of a statement come from**: clause by clause, and then the payloads. -/
def origins (draft : Draft) : List Origin :=
  draft.clauses.flatMap Origin.ofClause ++ Origin.ofText (trailingText draft)

/-- The bound values among the origins are those of the draft, in order. -/
theorem filterMap_binding?_origins (draft : Draft) :
    (origins draft).filterMap Origin.binding? = draft.bindings := by
  rw [origins, List.filterMap_append, Origin.filterMap_binding?_ofText, List.append_nil,
    List.filterMap_flatMap]
  exact List.flatMap_congr fun clause _ => Origin.filterMap_binding?_ofClause clause

/-! ## Texts and the origins of their markers -/

/-- An item of two lists one behind the other is an item of the second one or of the first. -/
theorem append_eq_append_cons {α : Type} {first second before after : List α} {item : α}
    (h : first ++ second = before ++ item :: after) :
    (∃ between, before = first ++ between ∧ second = between ++ item :: after) ∨
      ∃ rest, first = before ++ item :: rest := by
  rcases List.append_eq_append_iff.mp h with ⟨between, rfl, hsecond⟩ | ⟨between, rfl, hrest⟩
  · exact .inl ⟨between, rfl, hsecond⟩
  · cases between with
    | nil => exact .inl ⟨[], by simp, hrest.symm⟩
    | cons head between =>
      obtain ⟨rfl, -⟩ := List.cons.inj hrest
      exact .inr ⟨between, rfl⟩

/-- **The markers of a text come from a row of origins.** The marker of a bound value stands in the
test of its field, behind the markers of the origins before it. -/
structure Bears (draft : Draft) (text : List Char) (row : List Origin) : Prop where
  markers : markers text = row.map Origin.marker
  places : ∀ before binding after, row = before ++ .bound binding :: after →
    ∃ left right, text = left ++ (testText draft binding ++ right) ∧
      quoteAfter none left = none ∧ Sql.markers left = before.map Origin.marker

namespace Bears

variable {draft : Draft} {first second : List Char} {row others : List Origin}

theorem ofText (text : List Char) : Bears draft text (Origin.ofText text) := by
  refine ⟨(Origin.map_marker_ofText text).symm, fun before binding after h => ?_⟩
  -- None of these markers comes from a bound value.
  have hmem : Origin.bound binding ∈ Origin.ofText text := by simp [h]
  simp [Origin.ofText] at hmem

/-- A text without a question mark has no markers. -/
theorem of_not_mem {text : List Char} (h : '?' ∉ text) : Bears draft text [] := by
  refine ⟨markersFrom_of_not_mem h none, fun before binding after hrow => ?_⟩
  simp at hrow

/-- Markers of two texts one behind the other. -/
theorem append (hfirst : Bears draft first row) (hquote : quoteAfter none first = none)
    (hstart : second.takeWhile Char.isDigit = []) (hsecond : Bears draft second others) :
    Bears draft (first ++ second) (row ++ others) := by
  have hmarkers : ∀ left : List Char, left.takeWhile Char.isDigit = [] →
      Sql.markers (first ++ left) = row.map Origin.marker ++ Sql.markers left := by
    intro left hleft
    rw [Sql.markers, markersFrom_append hleft, hquote, ← hfirst.markers]
    rfl
  refine ⟨by rw [hmarkers second hstart, hsecond.markers, List.map_append], ?_⟩
  intro before binding after h
  rcases append_eq_append_cons h with ⟨between, rfl, hothers⟩ | ⟨rest, hrow⟩
  · -- The value belongs to the second text, and all markers of the first stand before it.
    obtain ⟨left, right, rfl, hleft, hbetween⟩ := hsecond.places between binding after hothers
    have hleftStart : left.takeWhile Char.isDigit = [] := by
      rw [List.takeWhile_append] at hstart
      split at hstart
      · rw [(List.append_eq_nil_iff.mp hstart).1, List.takeWhile_nil]
      · exact hstart
    refine ⟨first ++ left, right, by simp, ?_, ?_⟩
    · rw [quoteAfter_append, hquote, hleft]
    · rw [hmarkers left hleftStart, hbetween, List.map_append]
  · obtain ⟨left, right, rfl, hleft, hbefore⟩ := hfirst.places before binding rest hrow
    exact ⟨left, right ++ second, by simp, hleft, hbefore⟩

/-- A text without a question mark may stand before any other. -/
theorem behind (hfirst : '?' ∉ first) (hquote : quoteAfter none first = none)
    (hsecond : Bears draft second row) : Bears draft (first ++ second) row := by
  have hmarkers : ∀ left, Sql.markers (first ++ left) = Sql.markers left := by
    intro left
    rw [Sql.markers, markersFrom_append_of_not_mem hfirst, hquote]
    rfl
  refine ⟨by rw [hmarkers, hsecond.markers], fun before binding after h => ?_⟩
  obtain ⟨left, right, rfl, hleft, hbefore⟩ := hsecond.places before binding after h
  refine ⟨first ++ left, right, by simp, ?_, by rw [hmarkers, hbefore]⟩
  rw [quoteAfter_append, hquote, hleft]

/-- A text between parentheses keeps its markers. -/
theorem parenthesize {text : List Char} (h : Bears draft text row) (hclosed : Closed text) :
    Bears draft (parenthesize text) row := by
  have hright : Bears draft (text ++ [')']) (row ++ []) :=
    h.append (closed_iff.mp hclosed).2 rfl (of_not_mem (by decide))
  rw [List.append_nil] at hright
  have hleft : '?' ∉ ['('] := by decide
  exact behind hleft rfl hright

end Bears

/-! ## The markers of conditions -/

theorem not_mem_quoteParts {name : List Char} (h : Screen.isFieldName name) :
    '?' ∉ quoteParts name := by
  refine joinWith_induction (P := ('?' ∉ ·)) List.not_mem_nil (fun _ _ hfirst hsecond => ?_)
    (by decide) ?_
  · exact List.not_mem_append hfirst hsecond
  · rw [List.forall_mem_map]
    intro part hpart hmem
    have hrest : '?' ∈ part := by simpa using hmem
    exact absurd (isIdentifierRest_of_mem_part h hpart _ hrest) (by decide)

/-- The marker of a placeholder is one marker. -/
theorem markers_marker (placeholder : Placeholder) :
    markers placeholder.marker.toList = [placeholder.marker.toList] := by
  have hdigits : ∀ c ∈ Nat.toDigits 10 (placeholder.index + 1), c.isDigit = true :=
    fun c hc => Nat.isDigit_of_mem_toDigits (by decide) (by decide) hc
  have hmark : '?' ∉ Nat.toDigits 10 (placeholder.index + 1) :=
    fun hmem => absurd (hdigits _ hmem) (by decide)
  rw [marker_toList, markers, markersFrom, if_pos ⟨rfl, rfl⟩, markersFrom_of_not_mem hmark,
    List.takeWhile_eq_self_iff.mpr hdigits]

section

variable {screen : Screen} {draft : Draft}

/-- **The test of a field has one marker**, that of its value. -/
theorem Writable.bears_testText {binding : Binding} (h : Writable screen draft binding) :
    Bears draft (testText draft binding) [.bound binding] := by
  have hname := isFieldName_of_flagsField h.field
  have hquoted := (closed_iff.mp (isQuotedName_quoteParts hname).closed).2
  refine ⟨?_, fun before other after hrow => ?_⟩
  · -- Neither the name nor the relation has a question mark.
    rw [testText, List.append_assoc, markers,
      markersFrom_append_of_not_mem (not_mem_quoteParts hname), hquoted,
      markersFrom_append_of_not_mem (by split <;> decide)]
    have hrelation : quoteAfter none (if draft.param? binding.placeholder = some .null then
        [' ', 'I', 'S', ' '] else [' ', '=', ' ']) = none := by split <;> rfl
    rw [hrelation]
    exact markers_marker binding.placeholder
  · -- There is only this one, and nothing stands before it.
    cases before with
    | nil =>
      obtain ⟨hbinding, -⟩ := List.cons.inj hrow
      obtain rfl := Origin.bound.inj hbinding
      exact ⟨[], [], by simp, rfl, rfl⟩
    | cons origin before => simp at hrow

/-- The markers of a filter are those of its values. -/
theorem bears_testsText {bindings : List Binding}
    (h : ∀ binding ∈ bindings, Writable screen draft binding) :
    Bears draft (testsText draft bindings) (bindings.map .bound) := by
  induction bindings with
  | nil => exact .of_not_mem (by simp [testsText, joinWith])
  | cons binding bindings ih =>
    rw [List.forall_mem_cons] at h
    have htest := h.1.bears_testText
    have hquote := (closed_iff.mp h.1.closed_testText).2
    by_cases hnil : bindings = []
    · rw [hnil]
      exact htest
    · -- The first test, the word behind it, and the other tests.
      rw [testsText, List.map_cons, joinWith_cons _ _ (by simpa using hnil), List.append_assoc]
      exact htest.append hquote rfl ((ih h.2).behind (by decide) rfl)

/-- What the markers of a condition come from. -/
structure Marking (draft : Draft) (condition : Link × List Char) (row : List Origin) : Prop where
  closed : Closed condition.2
  bears : Bears draft condition.2 row

theorem ofClause_of_conditionOf? {clause : Clause} (h : conditionOf? draft clause = none) :
    Origin.ofClause clause = [] := by
  cases clause with
  | filter link bindings =>
    cases bindings with
    | nil => rfl
    | cons binding bindings => cases h
  | raw link text => cases h
  | _ => rfl

theorem marking_of_conditionOf? {clause : Clause}
    (hwritable : ∀ binding ∈ clause.bindings, Writable screen draft binding)
    (hraw : ∀ link text, clause = .raw link text → Closed text.toList)
    {condition : Link × List Char} (h : conditionOf? draft clause = some condition) :
    Marking draft condition (Origin.ofClause clause) := by
  cases clause with
  | filter link bindings =>
    cases bindings with
    | nil => cases h
    | cons binding bindings =>
      cases h
      exact ⟨closed_testsText hwritable, bears_testsText hwritable⟩
  | raw link text =>
    cases h
    exact ⟨hraw link text rfl, .ofText text.toList⟩
  | _ => cases h

/-- The conditions of clauses, with what their markers come from. -/
theorem exists_rows {clauses : List Clause}
    (hwritable : ∀ clause ∈ clauses, ∀ binding ∈ clause.bindings, Writable screen draft binding)
    (hraw : ∀ link text, .raw link text ∈ clauses → Closed text.toList) :
    ∃ rows, List.Forall₂ (Marking draft) (clauses.filterMap (conditionOf? draft)) rows ∧
      rows.flatten = clauses.flatMap Origin.ofClause := by
  induction clauses with
  | nil => exact ⟨[], .nil, rfl⟩
  | cons clause clauses ih =>
    rw [List.forall_mem_cons] at hwritable
    obtain ⟨rows, hrows, hflatten⟩ := ih hwritable.2 fun link text hmem =>
      hraw link text (List.mem_cons_of_mem _ hmem)
    cases hcondition : conditionOf? draft clause with
    | none =>
      rw [List.filterMap_cons_none hcondition, List.flatMap_cons,
        ofClause_of_conditionOf? hcondition]
      exact ⟨rows, hrows, hflatten⟩
    | some condition =>
      have hmarking := marking_of_conditionOf? hwritable.1
        (fun link text heq => hraw link text (heq ▸ List.mem_cons_self)) hcondition
      rw [List.filterMap_cons_some hcondition, List.flatMap_cons, ← hflatten]
      exact ⟨Origin.ofClause clause :: rows, .cons hmarking hrows, rfl⟩

/-- Further conditions bring their markers along, in order. -/
theorem bears_joinFrom {joined : List Char} {whole : Bool} {row : List Origin}
    {rest : List (Link × List Char)} {rows : List (List Origin)} (hclosed : Closed joined)
    (hjoined : Bears draft joined row) (h : List.Forall₂ (Marking draft) rest rows) :
    Bears draft (joinFrom joined whole rest) (row ++ rows.flatten) := by
  induction h generalizing joined whole row with
  | nil => simpa [joinFrom] using hjoined
  | @cons condition others rest rows hcondition _ ih =>
    have hleft : Bears draft (if whole then joined else parenthesize joined) row ∧
        Closed (if whole then joined else parenthesize joined) := by
      cases whole with
      | true => exact ⟨hjoined, hclosed⟩
      | false => exact ⟨hjoined.parenthesize hclosed, hclosed.parenthesize⟩
    have hgroup := hcondition.bears.parenthesize hcondition.closed
    have hbehind : Bears draft (connective condition.1 ++ parenthesize condition.2) others :=
      hgroup.behind (by cases condition.1 <;> decide) (by cases condition.1 <;> rfl)
    have hwhole := hleft.1.append (closed_iff.mp hleft.2).2 (by cases condition.1 <;> rfl) hbehind
    rw [← List.append_assoc] at hwhole
    rw [List.flatten_cons, ← List.append_assoc]
    exact ih ((closed_left hclosed whole _).append hcondition.closed.parenthesize) hwhole

theorem bears_joinConditions {conditions : List (Link × List Char)} {rows : List (List Origin)}
    (h : List.Forall₂ (Marking draft) conditions rows) :
    Bears draft (joinConditions conditions) rows.flatten := by
  cases h with
  | nil => exact .of_not_mem (by simp [joinConditions])
  | cons hcondition hrest =>
    exact bears_joinFrom hcondition.closed.parenthesize
      (hcondition.bears.parenthesize hcondition.closed) hrest

variable {target : Target}

theorem not_mem_introText (hname : screen.flagsField target.name = false) :
    '?' ∉ introText target := by
  have htable := not_mem_quoteParts (isFieldName_of_flagsField hname)
  unfold introText
  intro hmem
  rw [List.mem_append, List.mem_append] at hmem
  rcases hmem with (hmem | hmem) | hmem
  · exact absurd hmem (by decide)
  · exact htable hmem
  · exact absurd hmem (by decide)

/-- **The markers up to the end of the condition** come from the clauses, in order. -/
theorem bears_headText (hname : screen.flagsField target.name = false)
    (hwritable : ∀ clause ∈ draft.clauses, ∀ binding ∈ clause.bindings,
      Writable screen draft binding)
    (hraw : ∀ link text, .raw link text ∈ draft.clauses → Closed text.toList) :
    Bears draft (headText draft target) (draft.clauses.flatMap Origin.ofClause) := by
  obtain ⟨rows, hrows, hflatten⟩ := exists_rows hwritable hraw
  rw [← hflatten]
  by_cases hnil : conditions draft = []
  · -- Without a condition there is only the name of the table.
    have hempty : rows = [] := by
      rw [conditions] at hnil
      rw [hnil] at hrows
      exact List.forall₂_nil_left_iff.mp hrows
    have hmark : '?' ∉ headText draft target := by
      have hintro := not_mem_introText hname
      unfold introText at hintro
      rw [List.mem_append, not_or] at hintro
      unfold headText whereText
      rw [hnil, List.isEmpty_nil, if_pos rfl, List.append_nil]
      exact hintro.1
    rw [hempty]
    exact .of_not_mem hmark
  · rw [headText_of_ne_nil hnil]
    exact (bears_joinConditions hrows).behind (not_mem_introText hname)
      (closed_iff.mp (closed_introText hname)).2

/-- **The markers of a statement** come from its clauses and payloads, in order. -/
theorem bears_statement (hname : screen.flagsField target.name = false)
    (hwritable : ∀ clause ∈ draft.clauses, ∀ binding ∈ clause.bindings,
      Writable screen draft binding)
    (hraw : ∀ link text, .raw link text ∈ draft.clauses → Closed text.toList) :
    Bears draft (headText draft target ++ trailingText draft) (origins draft) := by
  have hclosed := closed_headText hname (closed_conditions hwritable hraw)
  refine (bears_headText hname hwritable hraw).append (closed_iff.mp hclosed).2 ?_ (.ofText _)
  rw [trailingText]
  cases payloads draft <;> rfl

/-! ## Statements without written markers -/

/-- All markers come from bound values when no raw filter and no payload has a marker. -/
theorem forall_isSome_binding?_iff (draft : Draft) :
    (∀ origin ∈ origins draft, origin.binding?.isSome) ↔
      (∀ link text, .raw link text ∈ draft.clauses → markers text.toList = []) ∧
        markers (trailingText draft) = [] := by
  have htext : ∀ text, (∀ origin ∈ Origin.ofText text, origin.binding?.isSome) ↔
      markers text = [] := by
    intro text
    rw [List.eq_nil_iff_forall_not_mem]
    simp [Origin.ofText, Origin.binding?]
  rw [origins, List.forall_mem_append, htext, List.forall_mem_flatMap]
  refine and_congr_left' ⟨fun h link text hmem => (htext _).mp (h _ hmem), fun h clause hmem => ?_⟩
  cases clause with
  | filter link bindings => simp [Origin.ofClause, Origin.binding?]
  | raw link text => exact (htext _).mpr (h link text hmem)
  | _ => simp [Origin.ofClause]

theorem map_marker_of_isSome {row : List Origin} (h : ∀ origin ∈ row, origin.binding?.isSome) :
    row.map Origin.marker =
      (row.filterMap Origin.binding?).map (·.placeholder.marker.toList) := by
  induction row with
  | nil => rfl
  | cons origin row ih =>
    rw [List.forall_mem_cons] at h
    cases origin with
    | bound binding => simp [ih h.2, Origin.marker, Origin.binding?]
    | written marker => exact absurd h.1 (by simp [Origin.binding?])

/-- The markers are those of the bound values, counted from one, exactly when no other one is
written. -/
theorem markers_eq_iff {text : List Char} (h : Bears draft text (origins draft)) {n : Nat}
    (hbindings : draft.bindings.map (·.placeholder.index) = List.range n) :
    markers text = (List.range n).map (fun index => (Placeholder.mk index).marker.toList) ↔
      (∀ link text, .raw link text ∈ draft.clauses → markers text.toList = []) ∧
        markers (trailingText draft) = [] := by
  have hlength : draft.bindings.length = n := by
    simpa using congrArg List.length hbindings
  have hbound : (draft.bindings.map (·.placeholder.marker.toList)) =
      (List.range n).map (fun index => (Placeholder.mk index).marker.toList) := by
    rw [← hbindings, List.map_map]
    rfl
  rw [h.markers, ← forall_isSome_binding?_iff]
  constructor
  · -- There are as many origins as bound values.
    intro heq
    have hcount : ((origins draft).filterMap Origin.binding?).length = (origins draft).length := by
      rw [filterMap_binding?_origins, hlength]
      simpa using (congrArg List.length heq).symm
    exact List.filterMap_length_eq_length.mp hcount
  · intro hall
    rw [map_marker_of_isSome hall, filterMap_binding?_origins, hbound]

end

/-- **The markers of a query.** Fragments that a sync with this backend accepts are compiled, and
the raw filters among them close the quoted runs that they open. Then the markers of the query come
from the clauses, in order, and behind them from the payloads: each value of the filters that count
has its own in the test of its field, numbered in the order of the values, and all others are
written in raw filters and payloads. They are exactly those of the values when none is written
there. -/
theorem sync_compile_markers {screen : Screen} {database : Database} {fragments : List Fragment}
    {tally : Tally} {query : CompiledQuery} :
    let engine : Engine := { backend := some (backend screen database) }
    let synced := engine.sync ⟨fragments⟩ tally
    let draft := synced.engine.draft
    synced.outcome = .ok () → (synced.engine.compile synced.tally).1 = .ok query →
      (∀ link raw, .raw link raw ∈ fragments → quoteAfter none raw.toList = none) →
        Bears draft query.text.toList (origins draft) ∧
        (origins draft).filterMap Origin.binding? =
          Draft.bindingsFrom 0 ((Draft.boundFields fragments).map (·.1)) ∧
        query.params = (Draft.boundFields fragments).map (·.2) ∧
        (markers query.text.toList =
            (List.range query.params.length).map (fun index =>
              (Placeholder.mk index).marker.toList) ↔
          (∀ link raw, .raw link raw ∈ fragments → markers raw.toList = []) ∧
            markers (trailingText draft) = []) := by
  intro engine synced draft hsync hcompile hquote
  obtain ⟨target, hcomposed⟩ : ∃ target, Composed screen fragments draft target query :=
    composed_of_sync hsync hcompile
  have hdraft := hcomposed.eq_collect
  have hbears : Bears draft query.text.toList (origins draft) := by
    rw [hcomposed.text]
    exact bears_statement hcomposed.name hcomposed.writable (hcomposed.closed hquote)
  have hnumbered : draft.bindings.map (·.placeholder.index) = List.range query.params.length := by
    rw [hcomposed.params, hdraft]
    exact Draft.collect_numbered fragments
  refine ⟨hbears, ?_, ?_, ?_⟩
  · rw [filterMap_binding?_origins, hdraft, Draft.collect_bindings]
  · rw [hcomposed.params, ← Draft.collect_params, ← hdraft]
  · simpa only [hcomposed.raw] using markers_eq_iff hbears hnumbered

/-- The markers of a query are those of its values. -/
theorem sync_compile_markers_name :
    let engine : Engine := { backend := some (backend {} []) }
    let fragments := [.raw .start "age > 3", .structured .and (.ofList [("name", .string "b?")]),
      .find ⟨"users", 0⟩, .misc (.string "ORDER BY '?'")]
    let synced := engine.sync ⟨fragments⟩ {}
    let text := "SELECT * FROM \"users\" WHERE (age > 3) AND (\"name\" = ?1) ORDER BY '?'"
    synced.outcome = .ok () ∧
      (synced.engine.compile synced.tally).1 = .ok ⟨text, [.string "b?"], false⟩ ∧
      (∀ link raw, .raw link raw ∈ fragments → quoteAfter none raw.toList = none) ∧
      Bears synced.engine.draft text.toList (origins synced.engine.draft) ∧
      markers text.toList = [['?', '1']] := by
  intro engine fragments synced text
  have hsync : synced.outcome = .ok () := by
    rfl
  have hcompile : (synced.engine.compile synced.tally).1 =
      .ok ⟨text, [.string "b?"], false⟩ := by
    decide +kernel
  have hraw : ∀ link raw, .raw link raw ∈ fragments → link = .start ∧ raw = "age > 3" := by
    intro link raw hmem
    simpa [fragments, Fragment.find] using hmem
  have hquote : ∀ link raw, .raw link raw ∈ fragments → quoteAfter none raw.toList = none := by
    intro link raw hmem
    obtain ⟨-, rfl⟩ := hraw link raw hmem
    rfl
  obtain ⟨hbears, -, -, hiff⟩ := sync_compile_markers hsync hcompile hquote
  refine ⟨hsync, hcompile, hquote, hbears, hiff.mpr ⟨fun link raw hmem => ?_, rfl⟩⟩
  obtain ⟨-, rfl⟩ := hraw link raw hmem
  rfl

/-- **A query may have markers of no value**, and markers of values may be hidden: a raw filter with
a marker is passed by the screen, and so is one whose last quoted run stands open. -/
theorem sync_compile_other_markers :
    let engine : Engine := { backend := some (backend {} []) }
    let query := fun raw => [.raw .start raw, .structured .and (.ofList [("name", .string "bob")]),
      .find ⟨"users", 0⟩]
    let synced := fun raw => engine.sync ⟨query raw⟩ {}
    ((synced "age > ?1").outcome = .ok () ∧
      ((synced "age > ?1").engine.compile (synced "age > ?1").tally).1 =
        .ok ⟨"SELECT * FROM \"users\" WHERE (age > ?1) AND (\"name\" = ?1)", [.string "bob"],
          false⟩ ∧
      markers "SELECT * FROM \"users\" WHERE (age > ?1) AND (\"name\" = ?1)".toList =
        [['?', '1'], ['?', '1']]) ∧
    (synced "'\"'\"").outcome = .ok () ∧
      ((synced "'\"'\"").engine.compile (synced "'\"'\"").tally).1 =
        .ok ⟨"SELECT * FROM \"users\" WHERE ('\"'\") AND (\"name\" = ?1)", [.string "bob"], false⟩ ∧
      markers "SELECT * FROM \"users\" WHERE ('\"'\") AND (\"name\" = ?1)".toList = [] := by
  decide +kernel

end ScreenedQuery.Sql
