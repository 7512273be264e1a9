import ScreenedQuery.Sql.Statement

/-!
# Expressions in rows of tokens

An expression is read from a row of tokens when the row is read to its end in front of whatever
cannot go on with it. What is read at a level that binds strongly is read at one that binds weakly,
operands are joined from the left, and a row between parentheses is an operand.

## Main definitions

* `Sql.Stops`: what cannot go on with an expression of a level
* `Sql.Parses`: a row of tokens that is read as an expression
* `Sql.Continues`: a row of operators and operands that is joined to what stands before it

## Main results

* `Sql.Parses.group`: a row between parentheses
* `Sql.parses_of_continues`, `Sql.Continues.cons`: operands joined from the left
* `Sql.Parses.not_of_operand`, `Sql.Parses.or_of_and`: from one level to weaker ones
* `Sql.readWhole_eq`: the count of steps is large enough
-/

namespace ScreenedQuery.Sql

/-- How strongly a level binds. -/
def Level.strength : Level → Nat
  | or => 0
  | and => 1
  | not => 2
  | equality => 3
  | order => 4
  | operand => 5

/-- Whether operators of a level stand between its operands. -/
def Level.IsInfix (level : Level) : Prop := level ≠ .not ∧ level ≠ .operand

theorem Level.strength_next {level : Level} (h : level.IsInfix) :
    level.next.strength = level.strength + 1 := by
  cases level with
  | not => exact absurd rfl h.1
  | operand => exact absurd rfl h.2
  | _ => rfl

theorem Level.strength_le (level : Level) : level.strength ≤ 5 := by
  cases level <;> decide

/-- **What cannot go on with an expression of a level**: it starts neither with an operator of this
or of a stronger level nor with a dot. -/
structure Stops (level : Level) (rest : List Token) : Prop where
  operator : ∀ other : Level, level.strength ≤ other.strength → readOperator other rest = none
  dot : afterSign? ['.'] rest = none

/-- **A row of tokens that is read as an expression** of a level, in so many steps. -/
def Parses (level : Level) (row : List Token) (expr : Expr) : Prop :=
  ∀ rest steps, Stops level rest → 8 * row.length + (6 - level.strength) ≤ steps →
    readExpr steps level (row ++ rest) = some (expr, rest)

/-- **A row of operators and operands** that is joined to what stands before it. -/
def Continues (level : Level) (left : Expr) (row : List Token) (expr : Expr) : Prop :=
  ∀ rest steps, Stops level rest → 8 * row.length + 1 ≤ steps →
    readOperands steps level left (row ++ rest) = some (expr, rest)

variable {level : Level} {row more : List Token} {left right expr : Expr}

theorem Stops.of_le {rest : List Token} {other : Level} (h : Stops level rest)
    (hle : level.strength ≤ other.strength) : Stops other rest :=
  ⟨fun stronger hstronger => h.operator stronger (Nat.le_trans hle hstronger), h.dot⟩

theorem Stops.next {rest : List Token} (h : Stops level rest) : Stops level.next rest :=
  h.of_le (by cases level <;> decide)

/-- The end of a row stops every expression. -/
theorem stops_nil : Stops level [] := by
  refine ⟨fun other _ => ?_, rfl⟩
  cases other <;> rfl

/-- So does a closing parenthesis. -/
theorem stops_close (rest : List Token) : Stops level (.sign [')'] :: rest) := by
  refine ⟨fun other _ => ?_, rfl⟩
  cases other <;> rfl

theorem stops_and (rest : List Token) : Stops .not (.word ['A', 'N', 'D'] :: rest) := by
  refine ⟨fun other hother => ?_, rfl⟩
  cases other with
  | or => exact absurd hother (by decide)
  | and => exact absurd hother (by decide)
  | _ => rfl

theorem stops_or (rest : List Token) : Stops .and (.word ['O', 'R'] :: rest) := by
  refine ⟨fun other hother => ?_, rfl⟩
  cases other with
  | or => exact absurd hother (by decide)
  | _ => rfl

/-! ## Operators between operands -/

theorem readExpr_of_isInfix (h : level.IsInfix) (steps : Nat) (row : List Token) :
    readExpr (steps + 1) level row =
      (readExpr steps level.next row).bind fun (left, rest) =>
        readOperands steps level left rest := by
  cases level with
  | not => exact absurd rfl h.1
  | operand => exact absurd rfl h.2
  | _ => rfl

/-- Nothing more is joined. -/
theorem Continues.nil : Continues level left [] left := by
  intro rest steps hstops hsteps
  obtain ⟨steps, rfl⟩ : ∃ n, steps = n + 1 := ⟨steps - 1, by omega⟩
  rw [List.nil_append, readOperands, hstops.operator level (Nat.le_refl _)]

/-- One operator and its operand, and more behind them. -/
theorem Continues.cons {operator : Token} {combine : Expr → Expr → Expr}
    (hoperator : ∀ rest,
      readOperator level (operator :: (row ++ rest)) = some (combine, row ++ rest))
    (hright : Parses level.next row right)
    (hmore : ∀ rest, Stops level rest → Stops level.next (more ++ rest))
    (hlevel : level.IsInfix) (h : Continues level (combine left right) more expr) :
    Continues level left (operator :: (row ++ more)) expr := by
  intro rest steps hstops hsteps
  rw [List.length_cons, List.length_append] at hsteps
  obtain ⟨steps, rfl⟩ : ∃ n, steps = n + 1 := ⟨steps - 1, by omega⟩
  have hstrength := Level.strength_next hlevel
  -- The step for the operator and its token pay for the levels below this one.
  rw [List.cons_append, List.append_assoc, readOperands, hoperator]
  simp only [Option.bind_eq_bind]
  rw [hright _ steps (hmore rest hstops) (by omega)]
  exact h rest steps hstops (by omega)

/-- **Operands joined from the left.** -/
theorem parses_of_continues (hlevel : level.IsInfix) (hfirst : Parses level.next row left)
    (hmore : ∀ rest, Stops level rest → Stops level.next (more ++ rest))
    (h : Continues level left more expr) : Parses level (row ++ more) expr := by
  intro rest steps hstops hsteps
  rw [List.length_append] at hsteps
  have hstrength := Level.strength_next hlevel
  have hle := level.next.strength_le
  obtain ⟨steps, rfl⟩ : ∃ n, steps = n + 1 := ⟨steps - 1, by omega⟩
  rw [readExpr_of_isInfix hlevel, List.append_assoc, hfirst _ steps (hmore rest hstops) (by omega),
    Option.bind_some]
  exact h rest steps hstops (by omega)

/-- An expression of the next level is one of the level itself. -/
theorem Parses.of_next (hlevel : level.IsInfix) (h : Parses level.next row expr) :
    Parses level row expr := by
  have hnext : ∀ rest, Stops level rest → Stops level.next ([] ++ rest) := fun _ => Stops.next
  have hrow := parses_of_continues hlevel h hnext Continues.nil
  rwa [List.append_nil] at hrow

/-- Two operands with an operator between them. -/
theorem Parses.binary {operator : Token} {combine : Expr → Expr → Expr} (hlevel : level.IsInfix)
    (hleft : Parses level.next row left) (hright : Parses level.next more right)
    (hoperator : ∀ rest, readOperator level (operator :: (more ++ rest)) =
      some (combine, more ++ rest))
    (hstops : ∀ rest, Stops level.next (operator :: rest)) :
    Parses level (row ++ operator :: more) (combine left right) := by
  refine parses_of_continues hlevel hleft (fun rest _ => hstops _) ?_
  have hnext : ∀ rest, Stops level rest → Stops level.next ([] ++ rest) := fun _ => Stops.next
  have hmore := Continues.cons hoperator hright hnext hlevel (@Continues.nil _ (combine left right))
  rwa [List.append_nil] at hmore

/-! ## Operands -/

/-- A row that does not start with a negation. -/
def IsPositive (row : List Token) : Prop := ∀ rest, afterKeyword? "not" (row ++ rest) = none

theorem Parses.not_of_equality (h : Parses .equality row expr) (hpositive : IsPositive row) :
    Parses .not row expr := by
  intro rest steps hstops hsteps
  have hstrength : Level.not.strength = 2 ∧ Level.equality.strength = 3 := ⟨rfl, rfl⟩
  obtain ⟨steps, rfl⟩ : ∃ n, steps = n + 1 := ⟨steps - 1, by omega⟩
  simp only [readExpr, hpositive rest]
  exact h rest steps (hstops.of_le (by decide)) (by omega)

/-- An operand is an expression of every level that binds more weakly. -/
theorem Parses.not_of_operand (h : Parses .operand row expr) (hpositive : IsPositive row) :
    Parses .not row expr := by
  have horder : Parses .order row expr := .of_next (by simp [Level.IsInfix]) h
  have hequality : Parses .equality row expr := .of_next (by simp [Level.IsInfix]) horder
  exact hequality.not_of_equality hpositive

theorem Parses.or_of_and (h : Parses .and row expr) : Parses .or row expr :=
  .of_next (by simp [Level.IsInfix]) h

theorem Parses.and_of_not (h : Parses .not row expr) : Parses .and row expr :=
  .of_next (by simp [Level.IsInfix]) h

/-- A quoted name is a column. -/
theorem parses_column (name : List Char) : Parses .operand [.name name] (.column true [] name) := by
  intro rest steps hstops hsteps
  obtain ⟨steps, rfl⟩ : ∃ n, steps = n + 1 := ⟨steps - 1, by simp at hsteps; omega⟩
  -- A path goes on behind a dot only.
  have hpath : readPath (.name name :: rest) = some ([(true, name)], rest) := by
    have hdot := hstops.dot
    rcases rest with _ | ⟨token, rest⟩
    · rfl
    · cases token with
      | sign sign =>
        have hsign : sign ≠ ['.'] := by
          rintro rfl
          exact nomatch hdot
        simp [readPath, Token.name?, hsign]
      | _ => rfl
  simp [readExpr, afterSign?, afterKeyword?, readAtom, hpath]

/-- A marker is a parameter. -/
theorem parses_parameter (number : Nat) :
    Parses .operand [.marker (some number)] (.parameter number) := by
  intro rest steps hstops hsteps
  obtain ⟨steps, rfl⟩ : ∃ n, steps = n + 1 := ⟨steps - 1, by simp at hsteps; omega⟩
  rfl

/-- **A row between parentheses** is an operand. -/
theorem Parses.group (h : Parses .or row expr) :
    Parses .operand (.sign ['('] :: (row ++ [.sign [')']])) expr := by
  intro rest steps hstops hsteps
  -- Inside the group all levels begin again, and its parentheses pay for them.
  have hstrength : Level.or.strength = 0 ∧ Level.operand.strength = 5 := ⟨rfl, rfl⟩
  simp only [List.length_cons, List.length_append, List.length_nil] at hsteps
  obtain ⟨steps, rfl⟩ : ∃ n, steps = n + 1 := ⟨steps - 1, by omega⟩
  have hinner := h (.sign [')'] :: rest) steps (stops_close rest) (by omega)
  have hopen : afterSign? ['('] (.sign ['('] :: (row ++ .sign [')'] :: rest)) =
      some (row ++ .sign [')'] :: rest) := rfl
  rw [List.cons_append, List.append_assoc, List.singleton_append]
  simp only [readExpr, hopen, hinner, Option.bind_eq_bind, Option.bind_some]
  rfl

/-- **The count of steps is large enough.** -/
theorem readWhole_eq (h : Parses .or row expr) : readWhole row = some (expr, []) := by
  have hrow := h [] (8 * (row.length + 1)) stops_nil (by simp [Level.strength]; omega)
  rwa [List.append_nil] at hrow

end ScreenedQuery.Sql
