import ScreenedQuery.Proofs.Engine.Run
import ScreenedQuery.Proofs.Sql.Conditions
import ScreenedQuery.Proofs.Sql.Grammar

/-!
# Reading statements back

The statement of a draft reads as the table of its target and the tree of its clauses. The tree
joins them from the left in the order in which they came, each with its own link, and each clause
is one part of it: the text of a raw filter as it is, or the comparisons of a structured filter
held together.

## Main definitions

* `Sql.clauseReading?`: what the condition of a clause reads as
* `Sql.draftReading?`: what the condition of a draft reads as

## Main results

* `Sql.headText_reads`: the statement of a draft is read back
* `Sql.run_compile_reads`: the same of the query of an engine after any commands
-/

namespace ScreenedQuery.Sql

/-! ## What a draft reads as -/

/-- What the condition on a field reads as. -/
def testReading (draft : Draft) (binding : Binding) : Reading :=
  .test binding.field (draft.param? binding.placeholder = some .null) binding.placeholder

/-- What the condition on fields reads as: their comparisons in order, held together. -/
def testsReading (draft : Draft) (first : Binding) (bindings : List Binding) : Reading :=
  bindings.foldl (fun tree binding => .and tree (testReading draft binding))
    (testReading draft first)

/-- **What the condition of a clause reads as**, with its link, if the clause has one. -/
def clauseReading? (draft : Draft) : Clause → Option (Link × Reading)
  | .filter _ [] => none
  | .filter link (first :: bindings) => some (link, testsReading draft first bindings)
  | .raw link text => some (link, .raw text)
  | _ => none

/-- Joins a condition to a tree. -/
def joinReading (tree : Reading) (next : Link × Reading) : Reading :=
  match next.1 with
  | .or => .or tree next.2
  | _ => .and tree next.2

/-- Conditions joined from the left, the link of the first one left out. -/
def joinReadings? : List (Link × Reading) → Option Reading
  | [] => none
  | (_, first) :: rest => some (rest.foldl joinReading first)

/-- **What the condition of a draft reads as**, if a clause has one. -/
def draftReading? (draft : Draft) : Option Reading :=
  joinReadings? (draft.clauses.filterMap (clauseReading? draft))

/-! ## Comparisons -/

section

variable {screen : Screen} {draft : Draft}

theorem testText_eq (draft : Draft) (binding : Binding) :
    testText draft binding = quoteParts binding.field.toList ++
      ' ' :: (relationWord (draft.param? binding.placeholder = some .null) ++
        ' ' :: binding.placeholder.marker.toList) := by
  unfold testText relationWord
  by_cases hnull : draft.param? binding.placeholder = some .null <;> simp [hnull]

/-- The condition on a field reads as its comparison. -/
theorem reads_testText {binding : Binding} (h : Writable screen draft binding) :
    Reads .primary (words (testText draft binding)) (testReading draft binding) := by
  have hfield := isFieldName_of_flagsField h.field
  have hname := isQuotedName_quoteParts hfield
  have hquoted : unquoteName? (quoteParts binding.field.toList) = some binding.field := by
    rw [unquoteName?_quoteParts hfield, String.ofList_toList]
  have hrelation : ∀ isNull, (relationWord isNull).all isPlain = true := by decide
  rw [testText_eq, hname.closed.words_between (hrelation _), hname.solid.words_eq,
    (solid_marker binding.placeholder).words_eq]
  exact .test hquoted _ binding.placeholder

/-- The condition of a structured filter reads as its comparisons, held together. -/
theorem reads_testsText {first : Binding} {bindings : List Binding}
    (h : ∀ binding ∈ first :: bindings, Writable screen draft binding) :
    Reads .conjunction (words (testsText draft (first :: bindings)))
      (testsReading draft first bindings) := by
  induction bindings using List.reverseRecOn with
  | nil => exact .primary (reads_testText (h first List.mem_cons_self))
  | append_singleton bindings binding ih =>
    -- The comparison that is added last is the right part of the tree.
    rw [← List.cons_append, List.forall_mem_append, List.forall_mem_singleton] at h
    have htext : testsText draft (first :: (bindings ++ [binding])) =
        testsText draft (first :: bindings) ++
          ' ' :: (['A', 'N', 'D'] ++ ' ' :: testText draft binding) := by
      rw [testsText, ← List.cons_append, List.map_append, List.map_singleton,
        joinWith_append_singleton _ (by simp)]
      simp [testsText]
    rw [htext, (closed_testsText h.1).words_between rfl, testsReading,
      List.foldl_append]
    exact .and (ih h.1) (reads_testText h.2)

/-! ## Conditions -/

/-- A condition and what it reads as between its parentheses. -/
structure Renders (condition : Link × List Char) (next : Link × Reading) : Prop where
  link : condition.1 = next.1
  closed : Closed condition.2
  reads : Reads .primary (words (parenthesize condition.2)) next.2

theorem renders_of_reads {link : Link} {condition : List Char} {reading : Reading}
    (hclosed : Closed condition) (hreads : Reads .disjunction (words condition) reading) :
    Renders (link, condition) (link, reading) := by
  refine ⟨rfl, hclosed, ?_⟩
  rw [hclosed.solid_parenthesize.words_eq]
  exact .group hclosed hreads

/-- Clauses without a condition read as nothing, and those with one as what it says. -/
theorem forall₂_renders {clauses : List Clause}
    (hwritable : ∀ clause ∈ clauses, ∀ binding ∈ clause.bindings, Writable screen draft binding)
    (hraw : ∀ link text, .raw link text ∈ clauses → Closed text.toList) :
    List.Forall₂ Renders (clauses.filterMap (conditionOf? draft))
      (clauses.filterMap (clauseReading? draft)) := by
  induction clauses with
  | nil => exact .nil
  | cons clause clauses ih =>
    rw [List.forall_mem_cons] at hwritable
    have hrest := ih hwritable.2 fun link text hmem => hraw link text (List.mem_cons_of_mem _ hmem)
    cases clause with
    | filter link bindings =>
      cases bindings with
      | nil => exact hrest
      | cons first bindings =>
        -- Comparisons are joined without parentheses of their own, and read in the group.
        refine .cons (renders_of_reads (closed_testsText hwritable.1) ?_) hrest
        exact .conjunction (reads_testsText hwritable.1)
    | raw link text =>
      have hclosed := hraw link text List.mem_cons_self
      refine .cons ⟨rfl, hclosed, ?_⟩ hrest
      rw [hclosed.solid_parenthesize.words_eq]
      exact .raw hclosed
    | setTarget => exact hrest
    | misc payload => exact hrest

/-- One condition more. -/
theorem reads_join {left : List Char} {tree : Reading} {condition : Link × List Char}
    {next : Link × Reading} (hclosed : Closed left) (hleft : Reads .primary (words left) tree)
    (h : Renders condition next) :
    Reads .disjunction (words (left ++ connective condition.1 ++ parenthesize condition.2))
      (joinReading tree next) := by
  obtain ⟨link, condition⟩ := condition
  obtain ⟨nextLink, reading⟩ := next
  obtain ⟨rfl, -, hreads⟩ := h
  have hand : Reads .disjunction
      (words (left ++ ' ' :: (['A', 'N', 'D'] ++ ' ' :: parenthesize condition)))
      (.and tree reading) := by
    rw [hclosed.words_between rfl]
    exact .conjunction (.and (.primary hleft) hreads)
  cases link with
  | start => simpa [connective, joinReading] using hand
  | and => simpa [connective, joinReading] using hand
  | or =>
    have hor : Reads .disjunction
        (words (left ++ ' ' :: (['O', 'R'] ++ ' ' :: parenthesize condition)))
        (.or tree reading) := by
      rw [hclosed.words_between rfl]
      exact .or (.conjunction (.primary hleft)) (.primary hreads)
    simpa [connective, joinReading] using hor

/-- Conditions that are joined read as their readings joined. -/
theorem reads_joinFrom {joined : List Char} {whole : Bool} {tree : Reading}
    {conditions : List (Link × List Char)} {nexts : List (Link × Reading)}
    (h : List.Forall₂ Renders conditions nexts) (hclosed : Closed joined)
    (hreads : Reads .disjunction (words joined) tree)
    (hwhole : whole = true → Reads .primary (words joined) tree) :
    Reads .disjunction (words (joinFrom joined whole conditions))
      (nexts.foldl joinReading tree) := by
  induction h generalizing joined whole tree with
  | nil => exact hreads
  | @cons condition next conditions nexts hnext hrest ih =>
    -- What is joined so far is one group, or is put between parentheses and is one then.
    have hleft : Closed (if whole then joined else parenthesize joined) ∧
        Reads .primary (words (if whole then joined else parenthesize joined)) tree := by
      cases whole with
      | true => exact ⟨hclosed, hwhole rfl⟩
      | false =>
        refine ⟨hclosed.parenthesize, ?_⟩
        rw [if_neg (by simp), hclosed.solid_parenthesize.words_eq]
        exact .group hclosed hreads
    rw [joinFrom, List.foldl_cons]
    refine ih ?_ (reads_join hleft.1 hleft.2 hnext) nofun
    exact (closed_left hclosed whole condition.1).append hnext.closed.parenthesize

/-- **The condition of a statement reads as the tree of its clauses.** -/
theorem reads_joinConditions {conditions : List (Link × List Char)} {nexts : List (Link × Reading)}
    (h : List.Forall₂ Renders conditions nexts) :
    (conditions = [] ∧ joinReadings? nexts = none) ∨
      conditions ≠ [] ∧ ∃ tree, joinReadings? nexts = some tree ∧
        Reads .disjunction (words (joinConditions conditions)) tree := by
  cases h with
  | nil => exact .inl ⟨rfl, rfl⟩
  | @cons condition next conditions nexts hnext hrest =>
    refine .inr ⟨by simp, _, rfl, ?_⟩
    exact reads_joinFrom hrest hnext.closed.parenthesize (.conjunction (.primary hnext.reads))
      fun _ => hnext.reads

/-! ## Statements -/

/-- **The statement of a draft is read back**, if it has no payloads and its raw filters are
closed. -/
theorem headText_reads {target : Target} (hname : screen.flagsField target.name = false)
    (hwritable : ∀ clause ∈ draft.clauses, ∀ binding ∈ clause.bindings,
      Writable screen draft binding)
    (hraw : ∀ link text, .raw link text ∈ draft.clauses → Closed text.toList) :
    ReadsSelect (headText draft target) target.name (draftReading? draft) := by
  have hquoted : unquoteName? (quoteParts target.name.toList) = some target.name := by
    rw [unquoteName?_quoteParts (isFieldName_of_flagsField hname), String.ofList_toList]
  have hrenders := forall₂_renders hwritable hraw
  rw [← conditions] at hrenders
  unfold headText whereText draftReading?
  -- The statement ends with the name of its table, or has a condition that is read.
  rcases reads_joinConditions hrenders with ⟨hnil, hnone⟩ | ⟨hne, tree, htree, hreads⟩
  · rw [hnil, hnone, List.isEmpty_nil, if_pos rfl, List.append_nil]
    exact .all hquoted rfl
  · rw [htree, if_neg (by simpa using hne), ← List.append_assoc]
    exact .filtered hquoted hreads rfl

end

theorem payloads_eq_nil {draft : Draft} (h : ∀ payload, .misc payload ∉ draft.clauses) :
    payloads draft = [] := by
  rw [payloads, List.filterMap_eq_nil_iff]
  intro clause hclause
  cases clause with
  | misc payload => exact absurd hclause (h payload)
  | _ => rfl

/-- **The query of an engine is read back**, after any commands. If the draft has no payloads and
its raw filters are closed, a query that is compiled reads as the table of the target and the tree
of the clauses, and, once it is known which texts are those of raw filters, as nothing else. Every
clause lists its fields in increasing order. -/
theorem run_compile_reads {commands : List Bench.Command} {screen : Screen} {database : Database}
    {tally : Tally} {query : CompiledQuery} :
    let engine := (Bench.run {} commands).engine
    engine.backend = some (backend screen database) →
      (∀ payload, .misc payload ∉ engine.draft.clauses) →
      (∀ link text, .raw link text ∈ engine.draft.clauses → Closed text.toList) →
      (engine.compile tally).1 = .ok query →
      ∃ target, engine.draft.output = some target ∧
        ReadsSelect query.text.toList target.name (draftReading? engine.draft) ∧
        (∀ name other, ReadsSelect query.text.toList name other →
          name = target.name ∧
            (other.map Reading.outline = (draftReading? engine.draft).map Reading.outline →
              other = draftReading? engine.draft)) ∧
        ∀ clause ∈ engine.draft.clauses, (clause.bindings.map (·.field)).Pairwise (· < ·) := by
  intro engine hbackend hmisc hraw hcompile
  obtain ⟨hpoisoned, hstatement⟩ := engine_compile_eq_ok hbackend hcompile
  obtain ⟨target, houtput, hname, hwritable, htext⟩ := statement_eq_ok hstatement
  rw [payloads_eq_nil hmisc, List.flatMap_nil, List.append_nil] at htext
  have hreads : ReadsSelect query.text.toList target.name (draftReading? engine.draft) :=
    htext ▸ headText_reads hname hwritable hraw
  -- The order of fields comes from the fragments that the draft has accepted.
  have hdraft := (Bench.run_draft {} rfl commands).eq_of_not_poisoned hpoisoned
  refine ⟨target, houtput, hreads, fun name other hother => hother.unique hreads, ?_⟩
  rw [hdraft]
  exact Draft.fields_pairwise_of_mem_collect _

/-- A raw filter, or a field that is null. -/
theorem run_compile_reads_or_null :
    let commands : List Bench.Command :=
      [.setBackend (backend {} []), .push 0 (.find ⟨"users", 0⟩), .push 0 (.raw .start "age > 3"),
        .push 0 (.structured .or (.ofList [("name", .null)])), .attach 0, .sync]
    let engine := (Bench.run {} commands).engine
    let text := "SELECT * FROM \"users\" WHERE (age > 3) OR (\"name\" IS ?1)"
    engine.backend = some (backend {} []) ∧
      (∀ payload, .misc payload ∉ engine.draft.clauses) ∧
      (∀ link text, .raw link text ∈ engine.draft.clauses → Closed text.toList) ∧
      (engine.compile {}).1 = .ok ⟨text, [.null], false⟩ ∧
      ReadsSelect text.toList "users" (some (.or (.raw "age > 3") (.test "name" true ⟨0⟩))) := by
  intro commands engine text
  have hclauses : engine.draft.clauses =
      [.filter .start [], .setTarget, .raw .start "age > 3", .filter .or [⟨"name", ⟨0⟩⟩]] := rfl
  have hmisc : ∀ payload, .misc payload ∉ engine.draft.clauses := by
    simp [hclauses]
  have hraw : ∀ link text, .raw link text ∈ engine.draft.clauses → Closed text.toList := by
    intro link text hmem
    obtain ⟨-, rfl⟩ : link = .start ∧ text = "age > 3" := by simpa [hclauses] using hmem
    decide
  have hcompile : (engine.compile {}).1 = .ok ⟨text, [.null], false⟩ := rfl
  obtain ⟨target, houtput, hreads, -, -⟩ := run_compile_reads rfl hmisc hraw hcompile
  obtain rfl := Option.some.inj houtput
  exact ⟨rfl, hmisc, hraw, hcompile, hreads⟩

end ScreenedQuery.Sql
