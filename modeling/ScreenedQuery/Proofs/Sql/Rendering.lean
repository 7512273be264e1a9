import ScreenedQuery.Proofs.Draft.Structured
import ScreenedQuery.Proofs.Sql.Lexing
import ScreenedQuery.Proofs.Sql.Parsing
import ScreenedQuery.Proofs.Sql.Reading

/-!
# Statements read by the store

The store takes a statement apart into tokens and reads them as an expression. For a draft whose
filters are structured it reads the tree of the draft's clauses, and gives every placeholder the
number that it is written with.

A store may bound the numbers of placeholders. Here the bound is a parameter, so that what is said
of a store does not depend on it.

## Main definitions

* `Sql.Reading.expr?`: a condition as an expression of the store
* `Sql.numberMarkersWithin`, `Sql.Select.ofTextWithin?`: reading with a bound of one's own
* `Sql.Presents`: a text that the store reads as a condition

## Main results

* `Sql.ofTextWithin?_largestMarker`: the bound of the store
* `Sql.presents_joinConditions`: the condition of a draft is read as its tree
* `Sql.ofTextWithin?_headText`: the statement of a draft is read as the selection that it means
-/

namespace ScreenedQuery.Sql

/-! ## Conditions as expressions -/

/-- **A condition as an expression of the store**, if it has no raw filters. -/
def Reading.expr? : Reading → Option Expr
  | raw _ => none
  | test field isNull placeholder =>
    some (.relation (if isNull then .same else .compare .eq) (.column true [] field.toList)
      (.parameter (placeholder.index + 1)))
  | and left right => do return .and (← left.expr?) (← right.expr?)
  | or left right => do return .or (← left.expr?) (← right.expr?)

/-- The numbers of the placeholders in a condition, in order. -/
def Reading.numbers : Reading → List Nat
  | raw _ => []
  | test _ _ placeholder => [placeholder.index + 1]
  | and left right => left.numbers ++ right.numbers
  | or left right => left.numbers ++ right.numbers

/-! ## Numbers of placeholders -/

/-- Whether a bound allows a number. -/
def withinLimit (limit : Option Nat) (number : Nat) : Bool := limit.all (number ≤ ·)

/-- The tokens with a number for every marker, none of them beyond a bound. -/
def numberMarkersWithin (limit : Option Nat) (largest : Nat) :
    List Token → Option (List Token × Nat)
  | [] => some ([], largest)
  | .marker number :: tokens =>
    let number := number.getD (largest + 1)
    if number = 0 || !withinLimit limit number then none
    else (numberMarkersWithin limit (max largest number) tokens).map fun (tokens, largest) =>
      (.marker (some number) :: tokens, largest)
  | token :: tokens =>
    (numberMarkersWithin limit largest tokens).map fun (tokens, largest) =>
      (token :: tokens, largest)

/-- The statement of a text, where a bound is given for the numbers of its parameters. -/
def Select.ofTextWithin? (limit : Option Nat) (text : List Char) : Option (Select × Nat) := do
  let (tokens, largest) ← numberMarkersWithin limit 0 (← tokens text)
  let select ← Select.ofTokens? tokens
  return (select, largest)

theorem numberMarkersWithin_largestMarker (largest : Nat) (row : List Token) :
    numberMarkersWithin (some largestMarker) largest row = numberMarkers largest row := by
  induction row generalizing largest with
  | nil => rfl
  | cons token row ih =>
    cases token with
    | marker number =>
      have hlimit : (!withinLimit (some largestMarker) (number.getD (largest + 1))) =
          decide (largestMarker < number.getD (largest + 1)) := by
        simp only [withinLimit, Option.all_some]
        rw [← decide_not, decide_eq_decide]
        omega
      simp only [numberMarkersWithin, numberMarkers, ih, hlimit]
    | _ => simp only [numberMarkersWithin, numberMarkers, ih]

/-- **The bound of the store.** -/
theorem ofTextWithin?_largestMarker (text : List Char) :
    Select.ofTextWithin? (some largestMarker) text = Select.ofText? text := by
  simp only [Select.ofTextWithin?, Select.ofText?, numberMarkersWithin_largestMarker]

/-- A row of tokens the markers of which have numbers. -/
def Marks (row : List Token) (numbers : List Nat) : Prop :=
  ∀ limit largest rest, (∀ number ∈ numbers, 0 < number ∧ withinLimit limit number = true) →
    numberMarkersWithin limit largest (row ++ rest) =
      (numberMarkersWithin limit (numbers.foldl max largest) rest).map fun (tokens, largest) =>
        (row ++ tokens, largest)

namespace Marks

variable {row other : List Token} {numbers others : List Nat}

theorem append (hrow : Marks row numbers) (hother : Marks other others) :
    Marks (row ++ other) (numbers ++ others) := by
  intro limit largest rest hnumbers
  rw [List.forall_mem_append] at hnumbers
  rw [List.append_assoc, hrow limit largest _ hnumbers.1, hother limit _ rest hnumbers.2,
    List.foldl_append, Option.map_map]
  simp [Function.comp_def]

theorem marker (number : Nat) : Marks [.marker (some number)] [number] := by
  intro limit largest rest hnumbers
  obtain ⟨hpos, hlimit⟩ := hnumbers number List.mem_cons_self
  have hne : number ≠ 0 := by omega
  simp [numberMarkersWithin, hne, hlimit]

/-- Tokens that are no markers. -/
theorem plain {token : Token} (h : ∀ number, token ≠ .marker number) : Marks [token] [] := by
  intro limit largest rest _
  cases token with
  | marker number => exact absurd rfl (h number)
  | _ => rfl

theorem eq_some (h : Marks row numbers) {limit : Option Nat}
    (hnumbers : ∀ number ∈ numbers, 0 < number ∧ withinLimit limit number = true) :
    numberMarkersWithin limit 0 row = some (row, numbers.foldl max 0) := by
  simpa [numberMarkersWithin] using h limit 0 [] hnumbers

end Marks

/-! ## Conditions -/

/-- **A text that the store reads as a condition**, by way of a row of tokens. -/
structure Presents (level : Level) (text : List Char) (reading : Reading) (row : List Token)
    (expr : Expr) : Prop where
  means : reading.expr? = some expr
  spells : Spells text row
  parses : Parses level row expr
  positive : IsPositive row
  marks : Marks row reading.numbers

section

variable {screen : Screen} {draft : Draft}

theorem spells_relationWord (isNull : Bool) :
    Spells (relationWord isNull) [if isNull then .word ['I', 'S'] else .sign ['=']] := by
  cases isNull with
  | true => exact spells_word rfl rfl (by decide) rfl
  | false => exact spells_equal

/-- The text of an undotted name is the name between quotes. -/
theorem quoteParts_of_undotted {name : List Char} (h : '.' ∉ name) :
    quoteParts name = quotePart name := by
  rw [quoteParts, splitParts_of_not_mem h]
  rfl

/-- The tokens of a comparison. -/
def testRow (field : List Char) (isNull : Bool) (placeholder : Placeholder) : List Token :=
  [.name field] ++ (if isNull then .word ['I', 'S'] else .sign ['=']) ::
    [.marker (some (placeholder.index + 1))]

theorem parses_testRow (field : List Char) (isNull : Bool) (placeholder : Placeholder) :
    Parses .equality (testRow field isNull placeholder)
      (.relation (if isNull then .same else .compare .eq) (.column true [] field)
        (.parameter (placeholder.index + 1))) := by
  have hinfix : Level.order.IsInfix ∧ Level.equality.IsInfix := by simp [Level.IsInfix]
  refine .binary hinfix.2 (.of_next hinfix.1 (parses_column field))
    (.of_next hinfix.1 (parses_parameter _)) (fun rest => ?_)
    fun rest => ⟨fun other hother => ?_, ?_⟩
  · cases isNull <;> rfl
  · -- Comparisons bind more weakly than the order of values.
    cases other with
    | order => cases isNull <;> rfl
    | operand => rfl
    | _ => exact absurd hother (by decide)
  · cases isNull <;> rfl

/-- A binding that can be written, its field without dots. -/
def IsSimple (screen : Screen) (draft : Draft) (binding : Binding) : Prop :=
  Writable screen draft binding ∧ '.' ∉ binding.field.toList

/-- A comparison. -/
theorem presents_test {binding : Binding} (h : IsSimple screen draft binding) :
    ∃ row expr, Presents .not (testText draft binding) (testReading draft binding) row expr := by
  have hquote : '"' ∉ binding.field.toList :=
    quote_not_mem_part (isFieldName_of_flagsField h.1.field) (by simp [splitParts_of_not_mem h.2])
  unfold testReading
  rw [testText_eq, quoteParts_of_undotted h.2]
  generalize (decide (draft.param? binding.placeholder = some .null)) = isNull
  have hpositive : IsPositive (testRow binding.field.toList isNull binding.placeholder) :=
    fun _ => rfl
  refine ⟨testRow binding.field.toList isNull binding.placeholder, _, rfl, ?_,
    (parses_testRow _ _ _).not_of_equality hpositive, hpositive, ?_⟩
  · exact (spells_quotePart hquote).append
      ((spells_relationWord isNull).append (spells_marker binding.placeholder))
  · have hname : Marks [.name binding.field.toList] [] := .plain (by simp)
    have hrelation : Marks [if isNull then .word ['I', 'S'] else .sign ['=']] [] := by
      cases isNull <;> exact .plain (by simp)
    exact hname.append (hrelation.append (.marker _))

theorem spells_and : Spells ['A', 'N', 'D'] [.word ['A', 'N', 'D']] :=
  spells_word rfl rfl (by decide) rfl

theorem spells_or : Spells ['O', 'R'] [.word ['O', 'R']] :=
  spells_word rfl rfl (by decide) rfl

/-- A comparison held together with what stands before it. -/
def andTest (draft : Draft) (tree : Reading) (binding : Binding) : Reading :=
  .and tree (testReading draft binding)

/-- Comparisons that are joined to a text one after the other. -/
theorem presents_tests_from {bindings : List Binding}
    (h : ∀ binding ∈ bindings, IsSimple screen draft binding)
    {text : List Char} {row : List Token} (htext : Spells text row) {left : Reading}
    {expr : Expr} (hleft : left.expr? = some expr) (hmarks : Marks row left.numbers) :
    ∃ more whole, (bindings.foldl (andTest draft) left).expr? = some whole ∧
      Spells (text ++ bindings.flatMap fun binding =>
        [' ', 'A', 'N', 'D', ' '] ++ testText draft binding) (row ++ more) ∧
      Continues .and expr more whole ∧ (∀ rest, Stops .and rest → Stops .not (more ++ rest)) ∧
      Marks (row ++ more) (bindings.foldl (andTest draft) left).numbers := by
  -- What is joined so far grows by each comparison.
  induction bindings generalizing text row left expr with
  | nil =>
    exact ⟨[], expr, hleft, by simpa using htext, .nil, fun _ => Stops.next, by simpa using hmarks⟩
  | cons binding bindings ih =>
    rw [List.forall_mem_cons] at h
    obtain ⟨last, test, htest⟩ := presents_test h.1
    have hword : Marks [.word ['A', 'N', 'D']] [] := .plain (by simp)
    have hnext : (andTest draft left binding).expr? = some (.and expr test) := by
      simp [andTest, Reading.expr?, hleft, htest.means]
    obtain ⟨more, whole, hwhole, hspells, hcontinues, hstops, hnumbers⟩ :=
      ih h.2 (htext.append (spells_and.append htest.spells)) hnext
        (hmarks.append (hword.append htest.marks))
    refine ⟨.word ['A', 'N', 'D'] :: (last ++ more), whole, hwhole, ?_, ?_,
      fun rest _ => stops_and _, ?_⟩
    · simpa using hspells
    · exact .cons (fun _ => rfl) htest.parses hstops (by simp [Level.IsInfix]) hcontinues
    · simpa using hnumbers

theorem joinWith_eq_flatMap (separator first : List Char) (parts : List (List Char)) :
    joinWith separator (first :: parts) = first ++ parts.flatMap (separator ++ ·) := by
  induction parts generalizing first with
  | nil => simp
  | cons part parts ih =>
    rw [joinWith_cons _ _ (by simp), ih]
    simp

/-- The comparisons of a structured filter. -/
theorem presents_tests {first : Binding} {bindings : List Binding}
    (h : ∀ binding ∈ first :: bindings, IsSimple screen draft binding) :
    ∃ row expr, Presents .and (testsText draft (first :: bindings))
      (testsReading draft first bindings) row expr := by
  rw [List.forall_mem_cons] at h
  obtain ⟨row, test, htest⟩ := presents_test h.1
  obtain ⟨more, whole, hwhole, hspells, hcontinues, hstops, hmarks⟩ :=
    presents_tests_from h.2 htest.spells htest.means htest.marks
  have htext : testsText draft (first :: bindings) = testText draft first ++
      bindings.flatMap fun binding => [' ', 'A', 'N', 'D', ' '] ++ testText draft binding := by
    rw [testsText, List.map_cons, joinWith_eq_flatMap, List.flatMap_map]
  refine ⟨row ++ more, whole, hwhole, htext ▸ hspells, ?_, fun rest => ?_, hmarks⟩
  · exact parses_of_continues (by simp [Level.IsInfix]) htest.parses hstops hcontinues
  · rw [List.append_assoc]
    exact htest.positive _

/-! ## Conditions joined -/

/-- A condition between parentheses. -/
theorem Presents.group {text : List Char} {reading : Reading} {row : List Token} {expr : Expr}
    (h : Presents .or text reading row expr) :
    Presents .operand (parenthesize text) reading (.sign ['('] :: (row ++ [.sign [')']])) expr := by
  refine ⟨h.means, h.spells.parenthesize, h.parses.group, fun _ => rfl, ?_⟩
  have hopen : Marks [.sign ['(']] [] := .plain (by simp)
  have hclose : Marks [.sign [')']] [] := .plain (by simp)
  simpa using hopen.append (h.marks.append hclose)

/-- One condition more. -/
theorem Presents.join {left right : List Char} {tree reading : Reading} {row other : List Token}
    {expr last : Expr} (hleft : Presents .operand left tree row expr)
    (hright : Presents .operand right reading other last) (link : Link) :
    ∃ whole joined, Presents .or (left ++ connective link ++ right)
      (joinReading tree (link, reading)) whole joined := by
  have hinfix : Level.or.IsInfix ∧ Level.and.IsInfix := by simp [Level.IsInfix]
  have hfirst := hleft.parses.not_of_operand hleft.positive
  have hsecond := hright.parses.not_of_operand hright.positive
  have hpositive (word : List Char) : IsPositive (row ++ .word word :: other) := fun rest => by
    rw [List.append_assoc]
    exact hleft.positive _
  have hmarks (word : List Char) :
      Marks (row ++ .word word :: other) (tree.numbers ++ reading.numbers) := by
    have hword : Marks [.word word] [] := .plain (by simp)
    exact hleft.marks.append (hword.append hright.marks)
  -- An operand binds more strongly than either word, so that both sides can be joined as they are.
  have hand : Presents .or (left ++ ' ' :: (['A', 'N', 'D'] ++ ' ' :: right)) (.and tree reading)
      (row ++ .word ['A', 'N', 'D'] :: other) (.and expr last) := by
    refine ⟨by simp [Reading.expr?, hleft.means, hright.means],
      hleft.spells.append (spells_and.append hright.spells), .or_of_and ?_, hpositive _, hmarks _⟩
    exact .binary hinfix.2 hfirst hsecond (fun _ => rfl) stops_and
  have hor : Presents .or (left ++ ' ' :: (['O', 'R'] ++ ' ' :: right)) (.or tree reading)
      (row ++ .word ['O', 'R'] :: other) (.or expr last) := by
    refine ⟨by simp [Reading.expr?, hleft.means, hright.means],
      hleft.spells.append (spells_or.append hright.spells), ?_, hpositive _, hmarks _⟩
    exact .binary hinfix.1 hfirst.and_of_not hsecond.and_of_not (fun _ => rfl) stops_or
  cases link with
  | start => exact ⟨_, _, by simpa [connective, joinReading] using hand⟩
  | and => exact ⟨_, _, by simpa [connective, joinReading] using hand⟩
  | or => exact ⟨_, _, by simpa [connective, joinReading] using hor⟩

/-- An operand is a condition as it is. -/
theorem Presents.or_of_operand {text : List Char} {reading : Reading} {row : List Token}
    {expr : Expr} (h : Presents .operand text reading row expr) :
    Presents .or text reading row expr :=
  ⟨h.means, h.spells, (h.parses.not_of_operand h.positive).and_of_not.or_of_and, h.positive,
    h.marks⟩

/-- A condition and what it reads as, as the store reads it. -/
def PresentsLinked (condition : Link × List Char) (next : Link × Reading) : Prop :=
  condition.1 = next.1 ∧ ∃ row expr, Presents .or condition.2 next.2 row expr

theorem presents_joinFrom {conditions : List (Link × List Char)} {nexts : List (Link × Reading)}
    (h : List.Forall₂ PresentsLinked conditions nexts) {joined : List Char} {whole : Bool}
    {tree : Reading} {row : List Token} {expr : Expr}
    (hjoined : Presents (if whole then .operand else .or) joined tree row expr) :
    ∃ row expr, Presents .or (joinFrom joined whole conditions) (nexts.foldl joinReading tree)
      row expr := by
  -- By induction on the conditions behind what is joined, for every text that is joined so far.
  induction h generalizing joined whole tree row expr with
  | nil =>
    cases whole with
    | true => exact ⟨row, expr, hjoined.or_of_operand⟩
    | false => exact ⟨row, expr, hjoined⟩
  | @cons condition next conditions nexts hnext hrest ih =>
    obtain ⟨link, condition⟩ := condition
    obtain ⟨nextLink, reading⟩ := next
    obtain ⟨rfl, last, behind, hbehind⟩ := hnext
    -- What is joined so far is an operand, or is put between parentheses and is one then.
    obtain ⟨first, before, hleft⟩ : ∃ first before, Presents .operand
        (if whole then joined else parenthesize joined) tree first before := by
      cases whole with
      | true => exact ⟨_, _, hjoined⟩
      | false => exact ⟨_, _, hjoined.group⟩
    obtain ⟨more, longer, hlonger⟩ := hleft.join hbehind.group link
    exact @ih _ false _ more longer hlonger

/-- **The condition of a draft is read as its tree.** -/
theorem presents_joinConditions {conditions : List (Link × List Char)}
    {nexts : List (Link × Reading)} (h : List.Forall₂ PresentsLinked conditions nexts) :
    (conditions = [] ∧ joinReadings? nexts = none) ∨
      conditions ≠ [] ∧ ∃ tree row expr, joinReadings? nexts = some tree ∧
        Presents .or (joinConditions conditions) tree row expr := by
  cases h with
  | nil => exact .inl ⟨rfl, rfl⟩
  | @cons condition next conditions nexts hnext hrest =>
    obtain ⟨-, row, expr, hfirst⟩ := hnext
    obtain ⟨whole, joined, hjoined⟩ := @presents_joinFrom _ _ hrest _ true _ _ _ hfirst.group
    exact .inr ⟨by simp, _, whole, joined, rfl, hjoined⟩

/-! ## Drafts of structured filters -/

theorem forall₂_presents {clauses : List Clause}
    (h : ∀ clause ∈ clauses, clause.IsStructured (IsSimple screen draft)) :
    List.Forall₂ PresentsLinked (clauses.filterMap (conditionOf? draft))
      (clauses.filterMap (clauseReading? draft)) := by
  induction clauses with
  | nil => exact .nil
  | cons clause clauses ih =>
    rw [List.forall_mem_cons] at h
    have hrest := ih h.2
    rcases h.1.cases with (rfl | ⟨link, rfl⟩) | ⟨link, first, bindings, rfl, hall⟩
    · exact hrest
    · exact hrest
    · obtain ⟨row, expr, htests⟩ := presents_tests hall
      refine .cons ⟨rfl, row, expr, ?_⟩ hrest
      exact ⟨htests.means, htests.spells, htests.parses.or_of_and, htests.positive, htests.marks⟩

theorem bindingText_eq {binding : Binding} (h : Writable screen draft binding) :
    bindingText screen draft binding = .ok (testText draft binding) := by
  obtain ⟨value, hvalue⟩ := Option.isSome_iff_exists.mp h.value
  simp only [bindingText, testText, hvalue, quoteName, h.field, Option.some.injEq]
  rfl

theorem filterText_eq {bindings : List Binding}
    (h : ∀ binding ∈ bindings, Writable screen draft binding) :
    filterText screen draft bindings = .ok (testsText draft bindings) := by
  have hall : bindings.mapM (bindingText screen draft) = .ok (bindings.map (testText draft)) := by
    induction bindings with
    | nil => rfl
    | cons binding bindings ih =>
      rw [List.forall_mem_cons] at h
      rw [List.mapM_cons, bindingText_eq h.1, ih h.2]
      rfl
  rw [filterText, hall]
  rfl

/-- Structured clauses add their conditions, and nothing that trails behind them. -/
theorem foldlM_extend_of_isStructured {clauses : List Clause}
    (h : ∀ clause ∈ clauses, clause.IsStructured (Writable screen draft)) (parts : Parts) :
    clauses.foldlM (Parts.extend screen draft) parts =
      .ok { parts with
        conditions := parts.conditions ++ clauses.filterMap (conditionOf? draft) } := by
  induction clauses generalizing parts with
  | nil => simp [pure, Except.pure]
  | cons clause clauses ih =>
    rw [List.forall_mem_cons] at h
    rw [List.foldlM_cons]
    rcases h.1.cases with (rfl | ⟨link, rfl⟩) | ⟨link, first, bindings, rfl, hall⟩
    · exact ih h.2 parts
    · exact ih h.2 parts
    · have hfirst : parts.extend screen draft (.filter link (first :: bindings)) =
          .ok { parts with conditions :=
            parts.conditions ++ [(link, testsText draft (first :: bindings))] } := by
        rw [Parts.extend, filterText_eq hall]
        · rfl
        · exact List.cons_ne_nil first bindings
      rw [hfirst]
      refine (ih h.2 _).trans ?_
      simp [conditionOf?]

/-- **The statement of a draft of structured filters** is made. -/
theorem statement_of_isStructured {target : Target} (houtput : draft.output = some target)
    (hname : screen.flagsField target.name = false)
    (hdraft : draft.IsStructured (Writable screen draft)) :
    statement screen draft = .ok (headText draft target) := by
  have hquote : quoteName screen target.name = .ok (quoteParts target.name.toList) := by
    simp [quoteName, hname]
  have htext (parts : Parts) (hconditions : parts.conditions = conditions draft)
      (htrailing : parts.trailing = []) :
      parts.text (quoteParts target.name.toList) = headText draft target := by
    unfold headText
    rw [text_eq, hconditions, htrailing, List.flatMap_nil, List.append_nil]
  unfold statement
  rw [houtput]
  refine Eq.trans (congrArg (· >>= _) (foldlM_extend_of_isStructured hdraft {})) ?_
  refine Eq.trans (congrArg (· >>= fun table => pure (Parts.text _ table)) hquote) ?_
  exact congrArg Except.ok (htext _ rfl rfl)

/-- The numbers of the placeholders of a draft, in order. -/
def draftNumbers (draft : Draft) : List Nat := draft.bindings.map (·.placeholder.index + 1)

theorem testsReading_numbers (first : Binding) (bindings : List Binding) :
    (testsReading draft first bindings).numbers =
      (first :: bindings).map (·.placeholder.index + 1) := by
  induction bindings using List.reverseRecOn with
  | nil => rfl
  | append_singleton bindings binding ih =>
    rw [testsReading, List.foldl_append, ← testsReading, List.foldl_cons, List.foldl_nil,
      Reading.numbers, ih, ← List.cons_append, List.map_append]
    rfl

theorem joinReading_numbers (tree : Reading) (next : Link × Reading) :
    (joinReading tree next).numbers = tree.numbers ++ next.2.numbers := by
  obtain ⟨link, reading⟩ := next
  cases link <;> rfl

/-- Joining keeps the numbers in the order of the conditions, whichever way the tree grows. -/
theorem joinReadings?_numbers (nexts : List (Link × Reading)) :
    ((joinReadings? nexts).map Reading.numbers).getD [] =
      nexts.flatMap fun next => next.2.numbers := by
  cases nexts with
  | nil => rfl
  | cons first nexts =>
    have hfold (tree : Reading) : (nexts.foldl joinReading tree).numbers =
        tree.numbers ++ nexts.flatMap fun next => next.2.numbers := by
      induction nexts generalizing tree with
      | nil => simp
      | cons next nexts ih => simp [ih, joinReading_numbers]
    simp [joinReadings?, hfold]

/-- The condition of a draft has the numbers of all its bindings. -/
theorem draftReading?_numbers (draft : Draft) :
    ((draftReading? draft).map Reading.numbers).getD [] = draftNumbers draft := by
  rw [draftReading?, joinReadings?_numbers, draftNumbers, Draft.bindings, List.map_flatMap]
  -- A clause without bindings has neither a condition nor a number.
  induction draft.clauses with
  | nil => rfl
  | cons clause clauses ih =>
    rw [List.flatMap_cons, ← ih]
    cases clause with
    | filter link bindings =>
      cases bindings with
      | nil => rfl
      | cons first bindings =>
        have hclause : clauseReading? draft (.filter link (first :: bindings)) =
          some (link, testsReading draft first bindings) := rfl
        rw [List.filterMap_cons_some hclause, List.flatMap_cons, testsReading_numbers]
        rfl
    | _ => rfl

/-! ## Statements -/

theorem spells_star : Spells ['*'] [.sign ['*']] :=
  spells_of_readToken rfl fun _ _ => rfl

/-- The tokens of a statement up to the name of its table. -/
def selectRow (name : List Char) : List Token :=
  [.word "SELECT".toList, .sign ['*'], .word "FROM".toList, .name name]

theorem spells_selectRow {name : List Char} (h : '"' ∉ name) :
    Spells ("SELECT * FROM ".toList ++ quotePart name) (selectRow name) := by
  have hselect : Spells "SELECT".toList [.word "SELECT".toList] :=
    spells_word rfl rfl (by decide) rfl
  have hfrom : Spells "FROM".toList [.word "FROM".toList] :=
    spells_word rfl rfl (by decide) rfl
  exact hselect.append (spells_star.append (hfrom.append (spells_quotePart h)))

theorem marks_selectRow (name : List Char) : Marks (selectRow name) [] := by
  have hword (word : List Char) : Marks [.word word] [] := .plain (by simp)
  have hstar : Marks [.sign ['*']] [] := .plain (by simp)
  have hname : Marks [.name name] [] := .plain (by simp)
  exact (hword _).append (hstar.append ((hword _).append hname))

/-- A selection of all rows, or of those on which a condition holds. -/
def plainSelect (name : List Char) (condition : Option Expr) : Select :=
  ⟨[name], none, condition, [], none, none⟩

theorem ofTokens?_selectRow (name : List Char) :
    Select.ofTokens? (selectRow name) = some (plainSelect name none) := rfl

theorem ofTokens?_filtered (name : List Char) {row : List Token} {expr : Expr}
    (h : Parses .or row expr) :
    Select.ofTokens? (selectRow name ++ .word "WHERE".toList :: row) =
      some (plainSelect name (some expr)) := by
  have hcondition : readCondition (.word "WHERE".toList :: row) = some (some expr, []) := by
    have hkeyword : afterKeyword? "where" (.word "WHERE".toList :: row) = some row := rfl
    rw [readCondition, hkeyword]
    dsimp only
    rw [readWhole_eq h]
    rfl
  have hpath : readPath (.name name :: .word "WHERE".toList :: row) =
      some ([(true, name)], .word "WHERE".toList :: row) := rfl
  have halias : readAlias (.word "WHERE".toList :: row) =
      some (none, .word "WHERE".toList :: row) := rfl
  have hhead (rest : List Token) :
      afterKeyword? "select" (selectRow name ++ rest) =
        some (.sign ['*'] :: .word "FROM".toList :: .name name :: rest) := rfl
  have hfrom (rest : List Token) :
      afterKeyword? "from" (.word "FROM".toList :: rest) = some rest := rfl
  have hstar (rest : List Token) : afterSign? ['*'] (.sign ['*'] :: rest) = some rest := rfl
  simp only [Select.ofTokens?, hhead, hstar, hfrom, hpath, halias, hcondition,
    Option.bind_eq_bind, Option.bind_some]
  rfl

theorem headText_of_undotted {target : Target} (h : '.' ∉ target.name.toList) :
    headText draft target = ("SELECT * FROM ".toList ++ quotePart target.name.toList) ++
      whereText (conditions draft) := by
  unfold headText
  rw [quoteParts_of_undotted h]

theorem whereText_of_ne_nil {conditions : List (Link × List Char)} (h : conditions ≠ []) :
    whereText conditions = ' ' :: ("WHERE".toList ++ ' ' :: joinConditions conditions) := by
  unfold whereText
  rw [if_neg (by simpa using h)]
  rfl

/-- **The statement of a draft is read as the selection that it means**, and the largest number of
a placeholder is found. -/
theorem ofTextWithin?_headText {limit : Option Nat} {target : Target}
    (hname : screen.flagsField target.name = false) (hdot : '.' ∉ target.name.toList)
    (hdraft : draft.IsStructured (IsSimple screen draft))
    (hlimit : ∀ number ∈ draftNumbers draft, withinLimit limit number = true) :
    ∃ condition, (draftReading? draft).map Reading.expr? = condition.map some ∧
      Select.ofTextWithin? limit (headText draft target) =
        some (plainSelect target.name.toList condition, (draftNumbers draft).foldl max 0) := by
  have hquote : '"' ∉ target.name.toList :=
    quote_not_mem_part (isFieldName_of_flagsField hname) (by simp [splitParts_of_not_mem hdot])
  have hselect := spells_selectRow hquote
  have hallowed : ∀ number ∈ draftNumbers draft, 0 < number ∧ withinLimit limit number = true :=
    fun number hnumber => ⟨by obtain ⟨_, -, rfl⟩ := List.mem_map.mp hnumber; omega,
      hlimit number hnumber⟩
  have hnumbers := draftReading?_numbers draft
  have hpresents := forall₂_presents hdraft
  rw [← conditions] at hpresents
  rw [headText_of_undotted hdot]
  rcases presents_joinConditions hpresents with
    ⟨hnil, hnone⟩ | ⟨hne, tree, row, expr, htree, hcondition⟩
  · -- Without a condition the statement ends with the name of its table.
    rw [← draftReading?] at hnone
    rw [hnone] at hnumbers
    have hmarks : numberMarkersWithin limit 0 (selectRow target.name.toList) = _ :=
      (marks_selectRow target.name.toList).eq_some (by simp)
    refine ⟨none, by rw [hnone]; rfl, ?_⟩
    rw [hnil, ← hnumbers, whereText, List.isEmpty_nil, if_pos rfl, List.append_nil]
    simp only [Select.ofTextWithin?, hselect.lexes.tokens_eq, hmarks, ofTokens?_selectRow,
      Option.bind_eq_bind, Option.bind_some]
    rfl
  · -- The condition stands behind one keyword more.
    rw [← draftReading?] at htree
    rw [htree] at hnumbers
    have hnumbers : tree.numbers = draftNumbers draft := hnumbers
    have hwhere : Spells "WHERE".toList [.word "WHERE".toList] :=
      spells_word rfl rfl (by decide) rfl
    have hspells : Spells _ (selectRow target.name.toList ++ .word "WHERE".toList :: row) :=
      hselect.append (hwhere.append hcondition.spells)
    have hword : Marks [.word "WHERE".toList] [] := .plain (by simp)
    have hmarks : Marks (selectRow target.name.toList ++ .word "WHERE".toList :: row)
        (draftNumbers draft) :=
      hnumbers ▸ (marks_selectRow target.name.toList).append (hword.append hcondition.marks)
    refine ⟨some expr, by rw [htree, Option.map_some, hcondition.means]; rfl, ?_⟩
    rw [whereText_of_ne_nil hne]
    simp only [Select.ofTextWithin?, hspells.lexes.tokens_eq, hmarks.eq_some hallowed,
      ofTokens?_filtered _ hcondition.parses, Option.bind_eq_bind, Option.bind_some]
    rfl

end

end ScreenedQuery.Sql
