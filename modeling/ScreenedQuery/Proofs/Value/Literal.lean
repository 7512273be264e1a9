import Mathlib.Data.List.TakeWhile
import ScreenedQuery.Proofs.Text.LetterCase
import ScreenedQuery.Value.Literal

/-!
# Literals that are texts

The words of null and the truth values are made of letters, and numbers of digits, signs, a point
and an exponent. A literal with any other character is a text.

## Main definitions

* `Number.isNumeral`: the characters of numbers as they are typed

## Main results

* `Value.ofLiteral_eq_string`: a literal with another character is a text
-/

namespace ScreenedQuery

namespace Number

/-- The characters of numbers as they are typed. -/
def isNumeral (c : Char) : Bool :=
  c.isDigit || c == '+' || c == '-' || c == '.' || c == 'e' || c == 'E'

variable {text : List Char} {c : Char}

theorem mem_splitSign (hc : c ∈ text) (h : isNumeral c = false) : c ∈ (splitSign text).2 := by
  unfold splitSign
  split
  · rcases List.mem_cons.mp hc with rfl | hc
    · exact nomatch h
    · exact hc
  · rcases List.mem_cons.mp hc with rfl | hc
    · exact nomatch h
    · exact hc
  · exact hc

theorem isDigit_of_isNumeral (h : isNumeral c = false) : c.isDigit = false := by
  simp only [isNumeral, Bool.or_eq_false_iff] at h
  exact h.1.1.1.1.1

theorem mem_splitDigits (hc : c ∈ text) (h : isNumeral c = false) : c ∈ (splitDigits text).2 := by
  rw [← List.takeWhile_append_dropWhile (p := Char.isDigit) (l := text)] at hc
  rcases List.mem_append.mp hc with hc | hc
  · have hdigit := List.mem_takeWhile_imp hc
    rw [isDigit_of_isNumeral h] at hdigit
    exact nomatch hdigit
  · exact hc

/-- A whole row of digits has no other character. -/
theorem all_isDigit_eq_false (hc : c ∈ text) (h : isNumeral c = false) :
    text.all Char.isDigit = false :=
  List.all_eq_false.mpr ⟨c, hc, by rw [isDigit_of_isNumeral h]; decide⟩

theorem integer?_eq_none (hc : c ∈ text) (h : isNumeral c = false) : integer? text = none := by
  rw [integer?]
  simp [all_isDigit_eq_false (mem_splitSign hc h) h]

theorem exponent?_eq_none (hc : c ∈ text) (h : isNumeral c = false) : exponent? text = none := by
  cases text with
  | nil => exact nomatch hc
  | cons d text =>
    rw [exponent?]
    split
    · rename_i hd
      rcases List.mem_cons.mp hc with rfl | hc
      · simp only [isNumeral, Bool.or_eq_false_iff] at h
        simp [h.1.2, h.2] at hd
      · simp [all_isDigit_eq_false (mem_splitSign hc h) h]
    · rfl

theorem decimal?_eq_none (hc : c ∈ text) (h : isNumeral c = false) : decimal? text = none := by
  -- Whatever is split off in front, the character is in what is left.
  rcases hsign : splitSign text with ⟨negative, unsigned⟩
  rcases hwhole : splitDigits unsigned with ⟨whole, rest⟩
  have hrest : c ∈ rest := by
    have hmem := mem_splitDigits (mem_splitSign hc h) h
    rwa [hsign, hwhole] at hmem
  simp only [decimal?, hsign, hwhole]
  split
  · rename_i rest
    have hmem : c ∈ rest := by
      rcases List.mem_cons.mp hrest with rfl | hmem
      · exact nomatch h
      · exact hmem
    rw [exponent?_eq_none (mem_splitDigits hmem h) h, Option.map_none, ite_self]
  · rw [exponent?_eq_none hrest h, Option.map_none, ite_self]

end Number

namespace Value

open Number (isNumeral)

variable {text : List Char} {c : Char}

theorem ofNumber?_eq_none (hc : c ∈ text) (h : isNumeral c = false) : ofNumber? text = none := by
  rw [ofNumber?, Number.integer?_eq_none hc h, Number.decimal?_eq_none hc h]
  rfl

/-- The words of null and the truth values have letters only. -/
theorem ofWord?_eq_none (hc : c ∈ text) (h : c.isAlpha = false) : ofWord? text = none := by
  have hmem : c ∈ text.map Char.toLower := List.mem_map.mpr ⟨c, hc, toLower_eq_self h⟩
  have hne (word : String) (hword : word.toList.all Char.isAlpha = true) :
      String.ofList (text.map Char.toLower) ≠ word := by
    rintro rfl
    rw [String.toList_ofList, List.all_eq_true] at hword
    rw [hword c hmem] at h
    exact nomatch h
  unfold ofWord?
  split
  · rename_i heq
    exact absurd heq (hne "null" (by decide))
  · rename_i heq
    exact absurd heq (hne "true" (by decide))
  · rename_i heq
    exact absurd heq (hne "false" (by decide))
  · rfl

/-- **A literal with a character that neither words nor numbers have is a text**: what stands
between its quotes, or all of it. -/
theorem ofLiteral_eq_string (htrim : Unicode.trim text = text) (hc : c ∈ text)
    (halpha : c.isAlpha = false) (hnumeral : isNumeral c = false) :
    ofLiteral text = string (String.ofList ((quoted? text).getD text)) := by
  unfold ofLiteral
  dsimp only
  rw [htrim]
  cases quoted? text with
  | some inner => rfl
  | none =>
    simp only [ofWord?_eq_none hc halpha, ofNumber?_eq_none hc hnumeral]
    rfl

end Value

end ScreenedQuery
