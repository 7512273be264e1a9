import Mathlib.Data.List.Basic
import ScreenedQuery.Proofs.Sql.Words

/-!
# A grammar of statements

How the words of a condition are read. A group stands for the condition in it, or, when it is the
group of a raw filter, for its text as it is. Conditions joined with `AND` are held together more
tightly than those joined with `OR`, and both are joined from the left.

A text can be read in several ways, since nothing in it tells the group of a raw filter from
others. Once it is known which texts are those of raw filters there is one way.

## Main definitions

* `Sql.Reading`: a condition as it is read
* `Sql.Reads`: the grammar of conditions
* `Sql.Reading.outline`: the parts of a condition, the texts of raw filters among them
* `Sql.ReadsSelect`: a text read as a statement

## Main results

* `Sql.Reads.unique`, `Sql.ReadsSelect.unique`: what is read is determined by the outline
-/

namespace ScreenedQuery.Sql

/-- **A condition as it is read.** -/
inductive Reading
  /-- The text of a raw filter. -/
  | raw (text : String)
  /-- The comparison of a field with a value, by `IS` or by `=`. -/
  | test (field : String) (isNull : Bool) (placeholder : Placeholder)
  | and (left right : Reading)
  | or (left right : Reading)
  deriving DecidableEq

/-- How tightly a condition is held together. -/
inductive Rank
  /-- A group or a comparison. -/
  | primary
  /-- Conditions joined with `AND`. -/
  | conjunction
  /-- Conditions joined with `OR`. -/
  | disjunction

/-- The word between a field and its value. -/
def relationWord (isNull : Bool) : List Char := if isNull then ['I', 'S'] else ['=']

/-- **The grammar of conditions.** -/
inductive Reads : Rank → List (List Char) → Reading → Prop
  /-- The group of a raw filter. -/
  | raw {text : String} (closed : Closed text.toList) :
      Reads .primary [parenthesize text.toList] (.raw text)
  /-- The group of a condition. -/
  | group {text : List Char} {reading : Reading} (closed : Closed text)
      (inner : Reads .disjunction (words text) reading) :
      Reads .primary [parenthesize text] reading
  /-- A comparison. -/
  | test {name : List Char} {field : String} (quoted : unquoteName? name = some field)
      (isNull : Bool) (placeholder : Placeholder) :
      Reads .primary [name, relationWord isNull, placeholder.marker.toList]
        (.test field isNull placeholder)
  /-- Nothing joined with `AND`. -/
  | primary {row : List (List Char)} {reading : Reading} (only : Reads .primary row reading) :
      Reads .conjunction row reading
  /-- One condition more, joined with `AND`. -/
  | and {row last : List (List Char)} {left right : Reading} (before : Reads .conjunction row left)
      (behind : Reads .primary last right) :
      Reads .conjunction (row ++ ['A', 'N', 'D'] :: last) (.and left right)
  /-- Nothing joined with `OR`. -/
  | conjunction {row : List (List Char)} {reading : Reading}
      (only : Reads .conjunction row reading) : Reads .disjunction row reading
  /-- One condition more, joined with `OR`. -/
  | or {row last : List (List Char)} {left right : Reading} (before : Reads .disjunction row left)
      (behind : Reads .conjunction last right) :
      Reads .disjunction (row ++ ['O', 'R'] :: last) (.or left right)

/-- **The parts of a condition**, in order: the texts of raw filters, and comparisons without what
they compare. -/
def Reading.outline : Reading → List (Option String)
  | .raw text => [some text]
  | .test _ _ _ => [none]
  | .and left right => left.outline ++ right.outline
  | .or left right => left.outline ++ right.outline

theorem Reading.outline_ne_nil (reading : Reading) : reading.outline ≠ [] := by
  induction reading with
  | raw text => simp [outline]
  | test field isNull placeholder => simp [outline]
  | and left right hleft hright => simp [outline, hleft]
  | or left right hleft hright => simp [outline, hleft]

namespace Reads

variable {row : List (List Char)} {reading : Reading}

/-! ## What is read -/

theorem primary_cases (h : Reads .primary row reading) :
    (∃ text : String, Closed text.toList ∧ row = [Sql.parenthesize text.toList] ∧
        reading = .raw text) ∨
      (∃ text, row = [Sql.parenthesize text] ∧ Reads .disjunction (words text) reading) ∨
      ∃ name field isNull placeholder, unquoteName? name = some field ∧
        row = [name, relationWord isNull, placeholder.marker.toList] ∧
        reading = .test field isNull placeholder := by
  cases h with
  | raw closed => exact .inl ⟨_, closed, rfl, rfl⟩
  | group _ inner => exact .inr (.inl ⟨_, rfl, inner⟩)
  | test quoted isNull placeholder =>
    exact .inr (.inr ⟨_, _, isNull, placeholder, quoted, rfl, rfl⟩)

theorem conjunction_cases (h : Reads .conjunction row reading) :
    Reads .primary row reading ∨
      ∃ before last left right, row = before ++ ['A', 'N', 'D'] :: last ∧
        reading = .and left right ∧ Reads .conjunction before left ∧
        Reads .primary last right := by
  cases h with
  | primary only => exact .inl only
  | and before behind => exact .inr ⟨_, _, _, _, rfl, rfl, before, behind⟩

theorem disjunction_cases (h : Reads .disjunction row reading) :
    Reads .conjunction row reading ∨
      ∃ before last left right, row = before ++ ['O', 'R'] :: last ∧
        reading = .or left right ∧ Reads .disjunction before left ∧
        Reads .conjunction last right := by
  cases h with
  | conjunction only => exact .inl only
  | or before behind => exact .inr ⟨_, _, _, _, rfl, rfl, before, behind⟩

/-! ## Where conditions are joined -/

/-- The words of a group or a comparison join nothing. -/
theorem primary_not_mem (h : Reads .primary row reading) :
    ['A', 'N', 'D'] ∉ row ∧ ['O', 'R'] ∉ row := by
  rcases primary_cases h with ⟨text, -, rfl, -⟩ | ⟨text, rfl, -⟩ |
    ⟨name, field, isNull, placeholder, hname, rfl, -⟩
  · simp [Sql.parenthesize]
  · simp [Sql.parenthesize]
  · have hand : ['A', 'N', 'D'] ≠ name := by
      rintro rfl
      have hnone : unquoteName? ['A', 'N', 'D'] = none := rfl
      simp [hnone] at hname
    have hor : ['O', 'R'] ≠ name := by
      rintro rfl
      have hnone : unquoteName? ['O', 'R'] = none := rfl
      simp [hnone] at hname
    cases isNull <;> simp [hand, hor, relationWord, marker_toList]

/-- The words of a conjunction join no alternatives. -/
theorem conjunction_not_mem (h : Reads .conjunction row reading) : ['O', 'R'] ∉ row := by
  -- Induction on the derivation; the other ranks do not occur.
  generalize hrank : Rank.conjunction = rank at h
  induction h with
  | primary only => exact (primary_not_mem only).2
  | and before behind ih =>
    simpa using ⟨ih rfl, (primary_not_mem behind).2⟩
  | _ => exact nomatch hrank

/-- The last place where a word stands parts a row in one way. -/
theorem parts_eq_of_not_mem {α : Type} {word : α} {before before' last last' : List α}
    (hlast : word ∉ last) (hlast' : word ∉ last')
    (h : before ++ word :: last = before' ++ word :: last') : before = before' ∧ last = last' := by
  rcases List.append_eq_append_iff.mp h with ⟨middle, rfl, hmiddle⟩ | ⟨middle, rfl, hmiddle⟩
  · cases middle with
    | nil => simpa using hmiddle
    | cons first middle =>
      obtain ⟨-, rfl⟩ := List.cons.inj hmiddle
      exact absurd (by simp) hlast
  · cases middle with
    | nil => simpa [eq_comm] using hmiddle
    | cons first middle =>
      obtain ⟨-, rfl⟩ := List.cons.inj hmiddle
      exact absurd (by simp) hlast'

/-! ## One way to read -/

/-- The texts of raw filters are shorter than what they stand in. -/
theorem length_of_mem_outline {rank : Rank} (h : Reads rank row reading) :
    ∀ text : String, some text ∈ reading.outline →
      text.toList.length + 2 ≤ row.flatten.length := by
  intro text hmem
  induction h with
  | raw closed =>
    obtain rfl : text = _ := by simpa [Reading.outline] using hmem
    simp [Sql.parenthesize]
  | @group inside reading closed inner ih =>
    -- The parentheses of the group add to what stands in it.
    have hinner := (ih hmem).trans (length_flatten_words inside)
    simp [Sql.parenthesize] at hinner ⊢
    omega
  | test quoted isNull placeholder => simp [Reading.outline] at hmem
  | primary only ih | conjunction only ih => exact ih hmem
  | and before behind ih ih' | or before behind ih ih' =>
    rw [List.flatten_append, List.length_append, List.flatten_cons, List.length_append]
    rcases List.mem_append.mp hmem with hmem | hmem
    · have := ih hmem
      omega
    · have := ih' hmem
      omega

/-- No text is that of a raw filter in itself. -/
theorem outline_ne {text : String} (h : Reads .disjunction (words text.toList) reading)
    (after after' : List (Option String)) :
    some text :: after ≠ reading.outline ++ after' := by
  intro heq
  -- The outline of what is read starts with a part that is shorter than the text.
  obtain ⟨first, rest, hcons⟩ := List.exists_cons_of_ne_nil reading.outline_ne_nil
  rw [hcons, List.cons_append, List.cons.injEq] at heq
  have hmem : some text ∈ reading.outline := by
    rw [hcons, heq.1]
    exact List.mem_cons_self
  have hlength := (h.length_of_mem_outline text hmem).trans (length_flatten_words text.toList)
  omega

/-- **The outline determines what is read.** -/
theorem unique_append {rank : Rank} {other : Reading} {after after' : List (Option String)}
    (h : Reads rank row reading) (h' : Reads rank row other)
    (houtline : reading.outline ++ after = other.outline ++ after') :
    reading = other ∧ after = after' := by
  -- Induction on the first derivation. The second one ends in the same rule: rows of words tell
  -- the other rules apart, and the outline tells the group of a raw filter from others.
  induction h generalizing other after after' with
  | @raw text closed =>
    rcases h'.primary_cases with ⟨text', -, hrow, rfl⟩ | ⟨inside, hrow, hinner⟩ |
      ⟨name, field, isNull, placeholder, -, hrow, -⟩
    · simpa [Reading.outline] using houtline
    · -- The text is taken as it is once, and read once.
      have hinside : inside = text.toList := by simpa [Sql.parenthesize] using hrow.symm
      exact absurd houtline (outline_ne (hinside ▸ hinner) after after')
    · simp at hrow
  | @group inside reading closed inner ih =>
    rcases h'.primary_cases with ⟨text', -, hrow, rfl⟩ | ⟨inside', hrow, hinner⟩ |
      ⟨name, field, isNull, placeholder, -, hrow, -⟩
    · have hinside : inside = text'.toList := by simpa [Sql.parenthesize] using hrow
      exact absurd houtline.symm (outline_ne (hinside ▸ inner) after' after)
    · obtain rfl : inside = inside' := by simpa [Sql.parenthesize] using hrow
      exact ih hinner houtline
    · simp at hrow
  | @test name field quoted isNull placeholder =>
    rcases h'.primary_cases with ⟨text', -, hrow, rfl⟩ | ⟨inside', hrow, hinner⟩ |
      ⟨name', field', isNull', placeholder', quoted', hrow, rfl⟩
    · simp at hrow
    · simp at hrow
    · obtain ⟨rfl, hrelation, hmarker⟩ : name = name' ∧ relationWord isNull = relationWord isNull' ∧
          placeholder.marker.toList = placeholder'.marker.toList := by simpa using hrow
      obtain rfl := Option.some.inj (quoted.symm.trans quoted')
      obtain rfl := marker_injective hmarker
      have hisNull : isNull = isNull' := by
        cases isNull <;> cases isNull' <;> first | rfl | exact absurd hrelation (by decide)
      subst hisNull
      simpa [Reading.outline] using houtline
  | primary only ih =>
    rcases h'.conjunction_cases with only' | ⟨before, last, left, right, rfl, -⟩
    · exact ih only' houtline
    · exact absurd (by simp) (primary_not_mem only).1
  | and before behind ih ih' =>
    rcases h'.conjunction_cases with
      only' | ⟨row', last', left', right', hrow, rfl, before', behind'⟩
    · exact absurd (by simp) (primary_not_mem only').1
    · -- The last `AND` stands in one place.
      obtain ⟨rfl, rfl⟩ := parts_eq_of_not_mem (primary_not_mem behind).1
        (primary_not_mem behind').1 hrow
      simp only [Reading.outline, List.append_assoc] at houtline
      obtain ⟨rfl, hrest⟩ := ih before' houtline
      obtain ⟨rfl, hafter⟩ := ih' behind' hrest
      exact ⟨rfl, hafter⟩
  | conjunction only ih =>
    rcases h'.disjunction_cases with only' | ⟨before, last, left, right, rfl, -⟩
    · exact ih only' houtline
    · exact absurd (by simp) (conjunction_not_mem only)
  | or before behind ih ih' =>
    rcases h'.disjunction_cases with
      only' | ⟨row', last', left', right', hrow, rfl, before', behind'⟩
    · exact absurd (by simp) (conjunction_not_mem only')
    · -- The last `OR` stands in one place.
      obtain ⟨rfl, rfl⟩ := parts_eq_of_not_mem (conjunction_not_mem behind)
        (conjunction_not_mem behind') hrow
      simp only [Reading.outline, List.append_assoc] at houtline
      obtain ⟨rfl, hrest⟩ := ih before' houtline
      obtain ⟨rfl, hafter⟩ := ih' behind' hrest
      exact ⟨rfl, hafter⟩

/-- **What is read is determined by the outline.** -/
theorem unique {rank : Rank} {other : Reading} (h : Reads rank row reading)
    (h' : Reads rank row other) (houtline : reading.outline = other.outline) :
    reading = other := by
  have happend : reading.outline ++ ([] : List (Option String)) = other.outline ++ [] := by
    rw [houtline]
  exact (h.unique_append h' happend).1

end Reads

/-! ## Statements -/

/-- **A text read as a statement** on the table of a name, with a condition or without. -/
inductive ReadsSelect (text : List Char) (name : String) : Option Reading → Prop
  /-- Without a condition. -/
  | all {table : List Char} (quoted : unquoteName? table = some name)
      (form : text = "SELECT * FROM ".toList ++ table) : ReadsSelect text name none
  /-- With a condition. -/
  | filtered {table condition : List Char} {reading : Reading}
      (quoted : unquoteName? table = some name)
      (reads : Reads .disjunction (words condition) reading)
      (form : text = "SELECT * FROM ".toList ++ table ++ " WHERE ".toList ++ condition) :
      ReadsSelect text name (some reading)

/-- The words behind the name of a table. -/
theorem words_filtered {table : List Char} (h : IsQuotedName table) (condition : List Char) :
    words (table ++ " WHERE ".toList ++ condition) =
      table :: ['W', 'H', 'E', 'R', 'E'] :: words condition := by
  have hwhole : table ++ " WHERE ".toList ++ condition =
      table ++ ' ' :: (['W', 'H', 'E', 'R', 'E'] ++ ' ' :: condition) := by simp
  rw [hwhole, h.closed.words_between rfl, h.solid.words_eq]
  rfl

/-- **A text is read as a statement on one table, and in one way** for each outline of its
condition. -/
theorem ReadsSelect.unique {text : List Char} {name name' : String} {first second : Option Reading}
    (h : ReadsSelect text name first) (h' : ReadsSelect text name' second) :
    name = name' ∧
      (first.map Reading.outline = second.map Reading.outline → first = second) := by
  -- Behind the start of the statement the words tell where the table ends.
  cases h with
  | @all table quoted form =>
    have hwords := (isQuotedName_of_unquoteName? quoted).solid.words_eq
    cases h' with
    | @all table' quoted' form' =>
      obtain rfl := List.append_cancel_left (form.symm.trans form')
      exact ⟨Option.some.inj (quoted.symm.trans quoted'), fun _ => rfl⟩
    | @filtered table' condition reading quoted' reads form' =>
      rw [List.append_assoc, List.append_assoc] at form'
      have htable := List.append_cancel_left (form.symm.trans form')
      rw [htable, ← List.append_assoc,
        words_filtered (isQuotedName_of_unquoteName? quoted')] at hwords
      simp at hwords
  | @filtered table condition reading quoted reads form =>
    rw [List.append_assoc, List.append_assoc] at form
    have hwords := words_filtered (isQuotedName_of_unquoteName? quoted) condition
    cases h' with
    | @all table' quoted' form' =>
      have htable := List.append_cancel_left (form.symm.trans form')
      rw [List.append_assoc, htable,
        (isQuotedName_of_unquoteName? quoted').solid.words_eq] at hwords
      simp at hwords
    | @filtered table' condition' reading' quoted' reads' form' =>
      rw [List.append_assoc, List.append_assoc] at form'
      have htable := List.append_cancel_left (form.symm.trans form')
      rw [List.append_assoc, htable, ← List.append_assoc,
        words_filtered (isQuotedName_of_unquoteName? quoted'), List.cons.injEq,
        List.cons.injEq] at hwords
      obtain ⟨rfl, -, hcondition⟩ := hwords
      refine ⟨Option.some.inj (quoted.symm.trans quoted'), fun houtline => ?_⟩
      rw [← hcondition] at reads
      exact congrArg some (reads.unique reads' (Option.some.inj houtline))

end ScreenedQuery.Sql
