import Mathlib.Data.List.DropRight
import ScreenedQuery.Proofs.Number.Digits
import ScreenedQuery.Unicode.Blank

/-!
# Texts between blanks

Cutting the blanks off a text leaves the part of it that starts and ends with something else, and
there is only one such part.

## Main definitions

* `Unicode.AllBlank`: a text of blanks
* `Unicode.blankCodes`: the code points of blanks
* `Unicode.Encloses`: a text with blanks around it

## Main results

* `Unicode.eq_false_of_isBlank`: what is checked for the code points holds of all blanks
* `Unicode.encloses_trim`: a text is what is left of it, with blanks around
* `Unicode.Encloses.trim_eq`: what stands between blanks is left
-/

namespace ScreenedQuery.Unicode

/-- A text of blanks. -/
def AllBlank (text : List Char) : Prop := ∀ c ∈ text, isBlank c = true

instance (text : List Char) : Decidable (AllBlank text) :=
  decidable_of_iff (text.all isBlank = true) List.all_eq_true

/-- The code points of blanks. -/
def blankCodes : List Nat :=
  [9, 10, 11, 12, 13, 0x20, 0x85, 0xA0, 0x1680, 0x2000, 0x2001, 0x2002, 0x2003, 0x2004, 0x2005,
    0x2006, 0x2007, 0x2008, 0x2009, 0x200A, 0x2028, 0x2029, 0x202F, 0x205F, 0x3000]

/-- What holds of none of the code points of blanks holds of no blank. -/
theorem eq_false_of_isBlank {p : Char → Bool} (hcodes : ∀ n ∈ blankCodes, p (Char.ofNat n) = false)
    {c : Char} (h : isBlank c = true) : p c = false := by
  rw [← Char.ofNat_toNat c]
  refine hcodes c.toNat ?_
  simp only [isBlank, Bool.or_eq_true, Bool.and_eq_true, decide_eq_true_eq, beq_iff_eq] at h
  simp only [blankCodes, List.mem_cons, List.not_mem_nil, or_false]
  omega

/-- The first text is the second one with blanks around it. -/
def Encloses (text inner : List Char) : Prop :=
  ∃ before after, AllBlank before ∧ AllBlank after ∧ text = before ++ (inner ++ after)

/-- What starts with no blank is found behind blanks. -/
theorem trimStart_append {before text : List Char} (hbefore : AllBlank before)
    (htext : ∀ c ∈ text.head?, isBlank c = false) : trimStart (before ++ text) = text :=
  (span_append hbefore htext).2

theorem exists_trimStart (text : List Char) :
    ∃ before, AllBlank before ∧ text = before ++ trimStart text :=
  ⟨text.takeWhile isBlank, fun _ => List.mem_takeWhile_imp, List.takeWhile_append_dropWhile.symm⟩

/-- A text whose blanks are cut off starts with none. -/
theorem isBlank_head_trimStart {text : List Char} {c : Char} (h : c ∈ (trimStart text).head?) :
    isBlank c = false := by
  have hnot := List.head?_dropWhile_not isBlank text
  rw [trimStart] at h
  rw [Option.mem_def.mp h] at hnot
  simpa using hnot

/-- What is cut off at the end leaves the first character, if any is left. -/
theorem isBlank_head_trim {text : List Char} {c : Char} (h : c ∈ (trim text).head?) :
    isBlank c = false := by
  have hstarts : trim text <+: trimStart text := List.rdropWhile_prefix isBlank (trimStart text)
  obtain ⟨after, hafter⟩ := hstarts
  have hstart : c ∈ (trimStart text).head? := by
    rw [← hafter, List.head?_append, Option.mem_def.mp h]
    rfl
  exact isBlank_head_trimStart hstart

/-- A text whose blanks are cut off ends with none. -/
theorem isBlank_last_trim {text : List Char} {c : Char} (h : c ∈ (trim text).getLast?) :
    isBlank c = false := by
  obtain ⟨hne, rfl⟩ := List.mem_getLast?_eq_getLast h
  exact Bool.eq_false_iff.mpr (List.rdropWhile_last_not isBlank (trimStart text) hne)

/-- **A text is what is left of it**, with blanks around. -/
theorem encloses_trim (text : List Char) : Encloses text (trim text) := by
  obtain ⟨before, hbefore, htext⟩ := exists_trimStart text
  refine ⟨before, (trimStart text).rtakeWhile isBlank, hbefore,
    fun c hc => List.mem_rtakeWhile_imp hc, ?_⟩
  have hsplit : trim text ++ (trimStart text).rtakeWhile isBlank = trimStart text :=
    List.rdropWhile_append_rtakeWhile
  rw [hsplit]
  exact htext

/-- **What stands between blanks is left** when they are cut off. -/
theorem Encloses.trim_eq {text inner : List Char} (h : Encloses text inner)
    (hhead : ∀ c ∈ inner.head?, isBlank c = false)
    (hlast : ∀ c ∈ inner.getLast?, isBlank c = false) : trim text = inner := by
  obtain ⟨before, after, hbefore, hafter, rfl⟩ := h
  rcases List.eq_nil_or_concat inner with rfl | ⟨inner, c, rfl⟩
  · have hall : AllBlank (before ++ after) := fun c hc =>
      (List.mem_append.mp hc).elim (hbefore c) (hafter c)
    rw [List.nil_append, trim, trimStart, List.dropWhile_eq_nil_iff.mpr hall, trimEnd_nil]
  · rw [List.concat_eq_append] at hhead hlast ⊢
    have hstart : ∀ d ∈ (inner ++ [c] ++ after).head?, isBlank d = false := by
      rw [List.head?_append_of_ne_nil _ (by simp)]
      exact hhead
    have hc : isBlank c = false := hlast c (by simp)
    rw [trim, trimStart_append hbefore hstart, trimEnd_append_of_blank _ hafter]
    exact List.rdropWhile_concat_neg isBlank inner c (by simp [hc])

end ScreenedQuery.Unicode
