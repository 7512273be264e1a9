import Mathlib.Data.List.TakeWhile
import ScreenedQuery.Proofs.Sql.Scan
import ScreenedQuery.Proofs.Traversal

/-!
# Names and placeholders in statements

The names of a statement are read by taking them apart at their dots and leaving the double quotes
of each part out. What is read is the name that was written. Names and placeholders are closed
texts.

## Main definitions

* `Sql.unquoteName?`: the name that a text stands for
* `Sql.IsQuotedName`: the form of the texts that stand for names

## Main results

* `Sql.unquoteName?_quoteParts`: a field name is read back
* `Sql.IsQuotedName.closed`: a name between quotes is a closed text
* `Sql.marker_injective`: a placeholder is known by how it is written
-/

namespace ScreenedQuery.Sql

open Screen (isIdentifier isIdentifierRest isIdentifierStart isFieldName)

/-! ## Parts of names -/

/-- A part of a name between double quotes. -/
def quotePart (part : List Char) : List Char := '"' :: (part ++ ['"'])

/-- What stands between the double quotes of a part of a name. -/
def unquotePart? : List Char → Option (List Char)
  | '"' :: text =>
    let part := text.takeWhile (· != '"')
    if text = part ++ ['"'] then some part else none
  | _ => none

theorem unquotePart?_quotePart {part : List Char} (h : '"' ∉ part) :
    unquotePart? (quotePart part) = some part := by
  have htake : (part ++ ['"']).takeWhile (· != '"') = part := by
    rw [List.takeWhile_append_of_pos fun c hc => ?_]
    · simp
    · simpa using fun heq : c = '"' => h (heq ▸ hc)
  simp [unquotePart?, quotePart, htake]

theorem eq_quotePart_of_unquotePart? {text part : List Char} (h : unquotePart? text = some part) :
    '"' ∉ part ∧ text = quotePart part := by
  unfold unquotePart? at h
  split at h
  · rename_i text
    dsimp only at h
    split at h
    · rename_i htext
      obtain rfl := Option.some.inj h
      refine ⟨fun hmem => ?_, by rw [quotePart, ← htext]⟩
      simpa using List.mem_takeWhile_imp hmem
    · exact nomatch h
  · exact nomatch h

/-! ## Names -/

/-- **The name that a text stands for**: its parts, taken apart at the dots, without their
quotes. -/
def unquoteName? (text : List Char) : Option String :=
  ((splitParts '.' text).mapM unquotePart?).map fun parts => String.ofList (joinWith ['.'] parts)

/-- **The form of the texts that stand for names.** -/
def IsQuotedName (text : List Char) : Prop :=
  ∃ parts : List (List Char), parts ≠ [] ∧ (∀ part ∈ parts, '"' ∉ part) ∧
    text = joinWith ['.'] (parts.map quotePart)

theorem map_quotePart_of_forall₂ {texts parts : List (List Char)}
    (h : List.Forall₂ (fun text part => unquotePart? text = some part) texts parts) :
    texts = parts.map quotePart ∧ ∀ part ∈ parts, '"' ∉ part := by
  induction h with
  | nil => simp
  | cons hpart _ ih =>
    obtain ⟨hquote, rfl⟩ := eq_quotePart_of_unquotePart? hpart
    rw [ih.1, List.map_cons, List.forall_mem_cons]
    exact ⟨rfl, hquote, ih.2⟩

/-- A text that stands for a name has the form of one. -/
theorem isQuotedName_of_unquoteName? {text : List Char} {name : String}
    (h : unquoteName? text = some name) : IsQuotedName text := by
  obtain ⟨parts, hparts, -⟩ := Option.map_eq_some_iff.mp h
  rw [mapM_eq_some_iff] at hparts
  have hne : parts ≠ [] := by
    rintro rfl
    exact splitParts_ne_nil '.' text (List.forall₂_nil_right_iff.mp hparts)
  obtain ⟨hsplit, hquote⟩ := map_quotePart_of_forall₂ hparts
  refine ⟨parts, hne, hquote, ?_⟩
  rw [← hsplit, joinWith_splitParts]

/-! ## Field names -/

/-- The characters of a field name are those of identifiers and dots. -/
theorem isIdentifierRest_of_mem_part {name part : List Char} (h : isFieldName name)
    (hpart : part ∈ splitParts '.' name) : ∀ c ∈ part, isIdentifierRest c = true := by
  have hidentifier : isIdentifier part := List.all_eq_true.mp h part hpart
  -- The first character of an identifier may also stand behind it.
  cases part with
  | nil => simp
  | cons c part =>
    obtain ⟨hstart, hrest⟩ := Bool.and_eq_true_iff.mp hidentifier
    rw [List.forall_mem_cons]
    refine ⟨?_, List.all_eq_true.mp hrest⟩
    rcases Bool.or_eq_true_iff.mp hstart with halpha | hunderscore
    · simp [isIdentifierRest, Char.isAlphanum, halpha]
    · simp [isIdentifierRest, hunderscore]

theorem quote_not_mem_part {name part : List Char} (h : isFieldName name)
    (hpart : part ∈ splitParts '.' name) : '"' ∉ part := by
  intro hmem
  have := isIdentifierRest_of_mem_part h hpart _ hmem
  exact absurd this (by decide)

/-- **A field name is read back.** -/
theorem unquoteName?_quoteParts {name : List Char} (h : isFieldName name) :
    unquoteName? (quoteParts name) = some (String.ofList name) := by
  -- The dots between the quoted parts are those between the parts, since no part holds one.
  have hsplit : splitParts '.' (quoteParts name) = (splitParts '.' name).map quotePart := by
    refine splitParts_joinWith (by simp [splitParts_ne_nil]) ?_
    rw [List.forall_mem_map]
    intro part hpart
    simpa [quotePart] using separator_not_mem hpart
  have hparts : ((splitParts '.' name).map quotePart).mapM unquotePart? =
      some (splitParts '.' name) := by
    rw [mapM_eq_some_iff, List.forall₂_map_left_iff, List.forall₂_same]
    exact fun part hpart => unquotePart?_quotePart (quote_not_mem_part h hpart)
  rw [unquoteName?, hsplit, hparts, Option.map_some, joinWith_splitParts]

example : unquoteName? "\"users\".\"name\"".toList = some "users.name" := rfl

/-! ## Names in a scan -/

theorem closed_quotePart {part : List Char} (h : '"' ∉ part) : Closed (quotePart part) :=
  .quoted rfl h

/-- A name between quotes is a closed text. -/
theorem IsQuotedName.closed {text : List Char} (h : IsQuotedName text) : Closed text := by
  obtain ⟨parts, -, hparts, rfl⟩ := h
  refine joinWith_induction .nil (fun _ _ => .append) (by decide) ?_
  rw [List.forall_mem_map]
  exact fun part hpart => closed_quotePart (hparts part hpart)

theorem isQuotedName_quoteParts {name : List Char} (h : isFieldName name) :
    IsQuotedName (quoteParts name) :=
  isQuotedName_of_unquoteName? (unquoteName?_quoteParts h)

/-! ## Placeholders -/

theorem marker_toList (placeholder : Placeholder) :
    placeholder.marker.toList = '?' :: Nat.toDigits 10 (placeholder.index + 1) := by
  rw [Placeholder.marker, String.toList_append, Nat.toString_eq_repr, Nat.toList_repr]
  rfl

theorem isPlain_of_isDigit {c : Char} (h : c.isDigit = true) : isPlain c = true :=
  isPlain_of_class rfl h

/-- The characters of a placeholder are plain. -/
theorem all_isPlain_marker (placeholder : Placeholder) :
    placeholder.marker.toList.all isPlain = true := by
  rw [marker_toList, List.all_cons, Bool.and_eq_true_iff, List.all_eq_true]
  refine ⟨rfl, fun c hc => isPlain_of_isDigit ?_⟩
  exact Nat.isDigit_of_mem_toDigits (by decide) (by decide) hc

theorem closed_marker (placeholder : Placeholder) : Closed placeholder.marker.toList :=
  .of_plain (all_isPlain_marker placeholder)

/-- A placeholder is known by how it is written. -/
theorem marker_injective {first second : Placeholder}
    (h : first.marker.toList = second.marker.toList) : first = second := by
  rw [marker_toList, marker_toList, List.cons.injEq] at h
  -- The number is read back from its digits.
  have hindex := congrArg (Nat.ofDigitChars 10 · 0) h.2
  simp only [Nat.ofDigitChars_ten_toDigits] at hindex
  obtain ⟨index⟩ := first
  obtain ⟨other⟩ := second
  exact congrArg Placeholder.mk (Nat.succ.inj hindex)

end ScreenedQuery.Sql
