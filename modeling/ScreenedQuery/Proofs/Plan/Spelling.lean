import ScreenedQuery.Proofs.Plan.Conditions

/-!
# How comparisons are written

A comparison is written as a field, one of the spellings of its operator and a literal, with any
blanks around the three. It is read as what was written, unless the character behind the operator
makes a longer operator of it.

## Main definitions

* `Comparison.spellings`: how the operators are written
* `Comparison.Lengthens`: a character that makes a longer operator
* `IsFieldText`: the form of a field

## Main results

* `Comparison.heads_of_spelling`: a spelling that is not made longer is the longest operator
* `Predicate.ofText?_written`: a comparison is read as it was written
-/

namespace ScreenedQuery

open Unicode (AllBlank)

/-! ## Operators -/

namespace Comparison

/-- **The spellings of a comparison.** There are two signs for what is not equal. -/
def spellings : Comparison → List (List Char)
  | eq => [['=']]
  | ne => [['!', '='], ['<', '>']]
  | lt => [['<']]
  | le => [['<', '=']]
  | gt => [['>']]
  | ge => [['>', '=']]

/-- A character makes a longer operator of the one in front of it. -/
def Lengthens (c : Char) (token : List Char) : Prop :=
  ∃ comparison : Comparison, token ++ [c] ∈ comparison.spellings

variable {token rest : List Char} {comparison : Comparison}

/-- The operators that are tried are the spellings of the comparisons. -/
theorem mem_tokens_iff : (token, comparison) ∈ tokens ↔ token ∈ comparison.spellings := by
  cases comparison <;> simp [tokens, spellings]

/-- **A spelling that is not made longer** is the longest operator at the start of a text. -/
theorem heads_of_spelling (htoken : token ∈ comparison.spellings)
    (hnext : ∀ c ∈ rest.head?, ¬Lengthens c token) :
    Heads (token ++ rest) token comparison rest := by
  refine ⟨mem_tokens_iff.mpr htoken, rfl, fun other hother hstarts => ?_⟩
  by_contra hlonger
  rw [not_le] at hlonger
  -- A longer operator has one character more, which is the first one behind the shorter.
  have hprefix : token <+: other.1 :=
    List.prefix_of_prefix_length_le (List.prefix_append token rest) hstarts hlonger.le
  obtain ⟨c, -, hother'⟩ :=
    exists_of_longer hother (mem_tokens_iff.mpr htoken) hprefix hlonger
  obtain ⟨more, hrest⟩ : [c] <+: rest := by
    rwa [hother', List.prefix_append_right_inj] at hstarts
  refine hnext c (by rw [← hrest]; rfl) ⟨other.2, ?_⟩
  rw [← hother']
  exact mem_tokens_iff.mp hother

end Comparison

/-! ## Fields -/

/-- **The form of a field**: ASCII letters, digits, underscores and dots, and neither a digit nor a
dot in front. -/
structure IsFieldText (field : List Char) : Prop where
  ne_nil : field ≠ []
  char : ∀ c ∈ field, c.isAlpha = true ∨ c.isDigit = true ∨ c = '_' ∨ c = '.'
  head : ∀ c ∈ field.head?, c.isDigit = false ∧ c ≠ '.'

instance (field : List Char) : Decidable (IsFieldText field) :=
  decidable_of_iff (field ≠ [] ∧
      (field.all fun c => c.isAlpha || c.isDigit || c == '_' || c == '.') = true ∧
      (field.head?.all fun c => !c.isDigit && c != '.') = true) <| by
    simp only [List.all_eq_true, Option.all_eq_true, Bool.or_eq_true, Bool.and_eq_true,
      Bool.not_eq_true', beq_iff_eq, bne_iff_ne, or_assoc]
    exact ⟨fun ⟨hne, hchar, hhead⟩ => ⟨hne, hchar, hhead⟩, fun h => ⟨h.ne_nil, h.char, h.head⟩⟩

theorem isRawField_of_isFieldText {field : List Char} (h : IsFieldText field) :
    isRawField field = true := by
  obtain ⟨c, rest, rfl⟩ := List.exists_cons_of_ne_nil h.ne_nil
  obtain ⟨hdigit, hdot⟩ := h.head c rfl
  rw [isRawField, Bool.and_eq_true, List.all_eq_true]
  constructor
  · rcases h.char c List.mem_cons_self with halpha | hdigit' | rfl | rfl
    · simp [Screen.isIdentifierStart, halpha]
    · exact absurd hdigit' (by simp [hdigit])
    · rfl
    · exact absurd rfl hdot
  · intro d hd
    rcases h.char d (List.mem_cons_of_mem c hd) with halpha | hdigit' | rfl | rfl
    · simp [isFieldRest, Screen.isIdentifierRest, Char.isAlphanum, halpha]
    · simp [isFieldRest, Screen.isIdentifierRest, Char.isAlphanum, hdigit']
    · rfl
    · rfl

/-! ## Comparisons -/

namespace Predicate

/-- **A comparison is read as it was written.** Take any field, any spelling of an operator and any
literal that starts and ends with no blank and is on one line, and put any blanks in front of them,
between them and behind them. If what follows the operator does not make a longer one of it, the
text is read as the comparison of this field, by this operator, with the value of this literal. -/
theorem ofText?_written {before field between token after literal last : List Char}
    {comparison : Comparison} (hbefore : AllBlank before) (hfield : IsFieldText field)
    (hbetween : AllBlank between) (htoken : token ∈ comparison.spellings)
    (hnext : ∀ c ∈ (after ++ literal).head?, ¬Comparison.Lengthens c token)
    (hafter : AllBlank after) (hliteral : IsLiteral literal) (hlast : AllBlank last) :
    ofText? (String.ofList
        (before ++ (field ++ (between ++ (token ++ (after ++ (literal ++ last))))))) =
      some (.compare (String.ofList field) comparison (.ofLiteral literal)) := by
  have hhead : (after ++ (literal ++ last)).head? = (after ++ literal).head? := by
    rw [← List.append_assoc, List.head?_append_of_ne_nil _ (by simp [hliteral.ne_nil])]
  have hheads := Comparison.heads_of_spelling htoken fun c hc => hnext c (hhead ▸ hc)
  refine ofText?_of_states ?_
  rw [String.toList_ofList]
  exact .of_parts before field between token after literal last hbefore
    (isRawField_of_isFieldText hfield) hbetween hheads hafter hliteral hlast

/-- A literal that starts with what would make a longer operator, if no blank stood in between. -/
theorem ofText?_written_apart :
    ¬Comparison.Lengthens ' ' ['<'] ∧ Comparison.Lengthens '=' ['<'] ∧
      IsLiteral "= 'no > 1'".toList ∧
      ofText? "\t_user.age <\u2003= 'no > 1'\n" =
        some (.compare "_user.age" .lt (.string "= 'no > 1'")) := by
  have hblank : ∀ c, Unicode.isBlank c = true → ¬Comparison.Lengthens c ['<'] := by
    rintro c hc ⟨comparison, h⟩
    have hmem := Comparison.isBlank_of_mem_token (Comparison.mem_tokens_iff.mpr h)
      (List.mem_append_right _ List.mem_cons_self)
    exact nomatch hc.symm.trans hmem
  have hnext : ∀ c ∈ (['\u2003'] ++ "= 'no > 1'".toList).head?, ¬Comparison.Lengthens c ['<'] := by
    intro c hc
    obtain rfl := Option.some.inj hc
    exact hblank _ (by decide)
  have hread := @ofText?_written ['\t'] "_user.age".toList [' '] ['<'] ['\u2003']
    "= 'no > 1'".toList ['\n'] .lt (by decide) (by decide) (by decide)
    (by decide) hnext (by decide) (by decide) (by decide)
  have hvalue : Value.ofLiteral "= 'no > 1'".toList = .string "= 'no > 1'" := by decide +kernel
  refine ⟨hblank ' ' (by decide), ⟨.le, by decide⟩, by decide, ?_⟩
  rw [hvalue] at hread
  exact hread

end Predicate

end ScreenedQuery
