import ScreenedQuery.Plan.Condition
import ScreenedQuery.Proofs.Screen.TautologyPattern
import ScreenedQuery.Proofs.Sql.Conditions

/-!
# Field names as texts

The screen checks field names by their form and texts by what they hold. The characters of a field
name are none of those that it looks for in a text, so that what passes as a field name passes as a
text. The parts of a field name hold no quotes either, and from its quoted form the name is read
back.

## Main definitions

* `Sql.IsQuotedForm`: the quoted form of a name, and what it tells about the name

## Main results

* `Screen.flagsText_of_flagsField`: what passes as a field name passes as a text
* `Sql.quoteName_isQuotedForm`: exactly the names that pass are quoted, each in a form of its own
-/

namespace ScreenedQuery.Screen

variable {screen : Screen} {name : List Char}

/-! ## The characters of field names -/

/-- A field name holds nothing but its characters. -/
theorem isFieldRest_of_mem (h : isFieldName name = true) : ∀ c ∈ name, isFieldRest c = true := by
  have hname : ∀ c ∈ joinWith ['.'] (splitParts '.' name), isFieldRest c = true := by
    -- The name is put together from its parts and the dots.
    refine joinWith_induction (P := fun text => ∀ c ∈ text, isFieldRest c = true)
      (List.forall_mem_nil _) ?_ (List.forall_mem_singleton.mpr rfl) fun part hpart c hc => ?_
    · intro first second hfirst hsecond c hc
      exact (List.mem_append.mp hc).elim (hfirst c) (hsecond c)
    · rw [isFieldRest, Sql.isIdentifierRest_of_mem_part h hpart c hc, Bool.true_or]
  rwa [joinWith_splitParts] at hname

/-- Other characters do not stand in a field name. -/
theorem not_mem_of_isFieldRest (h : isFieldName name = true) {c : Char}
    (hc : isFieldRest c = false) : c ∉ name := by
  intro hmem
  rw [isFieldRest_of_mem h c hmem] at hc
  cases hc

theorem isPlain_of_isFieldRest {c : Char} (h : isFieldRest c = true) : Sql.isPlain c = true :=
  Sql.isPlain_of_class rfl h

/-! ## Field names and the rules on texts -/

/-- Each forbidden sequence has a character that no field name holds. -/
theorem occursIn_forbidden_eq_false (h : isFieldName name = true) :
    forbiddenSequences.any (occursIn · name) = false := by
  have hforeign : forbiddenSequences.all (·.any fun c => !isFieldRest c) = true := by decide
  rw [List.any_eq_false]
  intro sequence hsequence hoccurs
  obtain ⟨c, hc, hother⟩ := List.any_eq_true.mp (List.all_eq_true.mp hforeign sequence hsequence)
  rw [Bool.not_eq_true'] at hother
  exact not_mem_of_isFieldRest h hother (mem_of_occursIn hoccurs c hc)

theorem quotesPair_of_isFieldName (h : isFieldName name = true) : quotesPair name = true := by
  have hsingle := List.count_eq_zero_of_not_mem (not_mem_of_isFieldRest h (c := '\'') rfl)
  have hdouble := List.count_eq_zero_of_not_mem (not_mem_of_isFieldRest h (c := '"') rfl)
  simp [quotesPair, hsingle, hdouble]

theorem nests_of_isFieldName (h : isFieldName name = true) : nests name = true := by
  have hplain : name.all Sql.isPlain = true :=
    List.all_eq_true.mpr fun c hc => isPlain_of_isFieldRest (isFieldRest_of_mem h c hc)
  exact (Sql.closed_iff.mp (.of_plain hplain)).1

/-- A tautology has a blank behind the word `or`. -/
theorem hasTautology_of_isFieldName (h : isFieldName name = true) : hasTautology name = false := by
  rw [← Bool.not_eq_true]
  intro htautology
  obtain ⟨before, rest, hname, hstarts⟩ := hasTautology_iff.mp htautology
  obtain ⟨-, word, blank, blanks, behind, hrest, -, hblank, -⟩ :=
    startsWithTautology_iff_exists.mp hstarts
  refine not_mem_of_isFieldRest h (Unicode.eq_false_of_isBlank (by decide) hblank) ?_
  rw [hname, hrest]
  simp

/-- **What passes as a field name passes as a text.** -/
theorem flagsText_of_flagsField {field : String} (h : screen.flagsField field = false) :
    screen.flagsText field = false := by
  obtain ⟨hform, hkeyword⟩ := Bool.or_eq_false_iff.mp h
  have hname : isFieldName field.toList = true := by simpa using hform
  -- The rules one after the other; of these the keywords are the only one that both checks share.
  rw [flagsText, occursIn_forbidden_eq_false hname, quotesPair_of_isFieldName hname,
    nests_of_isFieldName hname, hkeyword, hasTautology_of_isFieldName hname]
  rfl

end ScreenedQuery.Screen

namespace ScreenedQuery.Sql

open Screen (isIdentifier)

variable {screen other : Screen} {name otherName : String} {text : List Char}

/-! ## Quoted forms -/

/-- **The quoted form of a name**, and what it tells about the name. -/
structure IsQuotedForm (name : String) (text : List Char) : Prop where
  /-- Part by part the name stands in the text between double quotes, with dots between the parts,
  and the parts are identifiers. -/
  parts : ∃ parts : List (List Char), parts ≠ [] ∧
    (∀ part ∈ parts, isIdentifier part = true ∧ part ≠ [] ∧ '.' ∉ part ∧
      ∀ c ∈ part, isQuote c = false) ∧
    name.toList = joinWith ['.'] parts ∧ text = joinWith ['.'] (parts.map quotePart)
  /-- The name is read back. -/
  read : unquoteName? text = some name
  /-- No screen lets another name be quoted in this form. -/
  unique : ∀ other otherName, quoteName other otherName = .ok text → otherName = name

theorem quoteName_of_flagsField (h : screen.flagsField name = false) :
    quoteName screen name = .ok (quoteParts name.toList) := by
  rw [quoteName, h]
  rfl

example : quoteName {} "profile.city" = .ok "\"profile\".\"city\"".toList := by decide

theorem unquoteName?_of_quoteName (h : quoteName screen name = .ok text) :
    unquoteName? text = some name := by
  obtain ⟨hfield, rfl⟩ := quoteName_eq_ok h
  rw [unquoteName?_quoteParts (isFieldName_of_flagsField hfield), String.ofList_toList]

/-- Two names with the same quoted form are the same, since both are read back from it. -/
theorem quoteName_injective (h : quoteName screen name = .ok text)
    (hother : quoteName other otherName = .ok text) : otherName = name := by
  have hread := unquoteName?_of_quoteName hother
  rw [unquoteName?_of_quoteName h] at hread
  exact (Option.some.inj hread).symm

/-- The parts of a field name. -/
theorem isIdentifier_of_mem_part {name part : List Char} (h : Screen.isFieldName name = true)
    (hpart : part ∈ splitParts '.' name) :
    isIdentifier part = true ∧ part ≠ [] ∧ '.' ∉ part ∧ ∀ c ∈ part, isQuote c = false := by
  have hidentifier : isIdentifier part = true := List.all_eq_true.mp h part hpart
  refine ⟨hidentifier, ?_, separator_not_mem hpart, fun c hc => ?_⟩
  · rintro rfl
    cases hidentifier
  · have hrest := isIdentifierRest_of_mem_part h hpart c hc
    have hname : isFieldRest c = true := by rw [isFieldRest, hrest, Bool.true_or]
    exact (isPlain_iff.mp (Screen.isPlain_of_isFieldRest hname)).2.1

/-- What is written for a name is its quoted form. -/
theorem isQuotedForm_of_quoteName (h : quoteName screen name = .ok text) :
    IsQuotedForm name text where
  parts := by
    obtain ⟨hfield, rfl⟩ := quoteName_eq_ok h
    refine ⟨splitParts '.' name.toList, splitParts_ne_nil '.' _, fun part hpart => ?_,
      (joinWith_splitParts '.' _).symm, rfl⟩
    exact isIdentifier_of_mem_part (isFieldName_of_flagsField hfield) hpart
  read := unquoteName?_of_quoteName h
  unique := fun _ _ hother => quoteName_injective h hother

/-- **Exactly the names that pass as field names are quoted.** They pass as texts, too, and their
quoted forms tell them apart. -/
theorem quoteName_isQuotedForm (screen : Screen) (name : String) :
    (screen.flagsField name = false → screen.flagsText name = false ∧
      ∃ text, quoteName screen name = .ok text ∧ IsQuotedForm name text) ∧
    (screen.flagsField name = true →
      quoteName screen name =
        .error (.compile ("'" ++ name ++ "' is not a valid identifier"))) := by
  constructor
  · intro hfield
    have hquoted := quoteName_of_flagsField hfield
    exact ⟨Screen.flagsText_of_flagsField hfield, _, hquoted, isQuotedForm_of_quoteName hquoted⟩
  · intro hflags
    exact if_pos hflags

/-- A dotted name that passes, and one that a further keyword denies. -/
theorem quoteName_isQuotedForm_sleep :
    let screen := Screen.withKeywords ["sleep"]
    (screen.flagsField "profile.city" = false ∧ screen.flagsText "profile.city" = false ∧
      ∃ text, quoteName screen "profile.city" = .ok text ∧ IsQuotedForm "profile.city" text) ∧
    screen.flagsField "a.sleep" = true ∧
      quoteName screen "a.sleep" = .error (.compile "'a.sleep' is not a valid identifier") := by
  intro screen
  have hcity : screen.flagsField "profile.city" = false := by decide
  have hsleep : screen.flagsField "a.sleep" = true := by decide
  exact ⟨⟨hcity, (quoteName_isQuotedForm screen "profile.city").1 hcity⟩, hsleep,
    (quoteName_isQuotedForm screen "a.sleep").2 hsleep⟩

end ScreenedQuery.Sql
