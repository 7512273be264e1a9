import ScreenedQuery.Proofs.Text.LetterCase
import ScreenedQuery.Unicode.CaseFold
import ScreenedQuery.Unicode.Word

/-!
# Case and words

Characters that are equal up to case belong to words alike: only word characters are folded, and to
word characters.

## Main definitions

* `FoldRange.inWords`: whether a run of characters stays among the word characters

## Main results

* `Unicode.foldRanges_inWords`: all characters that are folded belong to words
* `Unicode.isWordChar_of_fold_eq`: characters that are equal up to case belong to words alike
* `Unicode.fold_eq_of_toLower_eq`: the two cases of a letter are equal up to case
-/

namespace ScreenedQuery.Unicode

variable {c d : Char}

/-- Whether all code points from one to another lie in the same range. -/
def Ranges.covers (ranges : Ranges) (first last : Nat) : Bool :=
  ranges.any fun range => Nat.ble range.1 first && Nat.ble last range.2

theorem Ranges.has_of_covers {ranges : Ranges} {first last n : Nat}
    (h : ranges.covers first last = true) (hfirst : first ≤ n) (hlast : n ≤ last) :
    ranges.has n = true := by
  obtain ⟨range, hrange, hcovers⟩ := List.any_eq_true.mp h
  rw [Bool.and_eq_true, Nat.ble_eq, Nat.ble_eq] at hcovers
  exact has_iff.mpr ⟨range, hrange, by omega, by omega⟩

/-- Whether the characters of a run belong to words, and those that they are folded to: words beyond
ASCII, or small letters. Every second character of one run is not assigned. -/
def FoldRange.inWords (range : FoldRange) : Bool :=
  let first := (range.first + range.offset).toNat
  let last := (range.last + range.offset).toNat
  Nat.ble 0x80 range.first &&
    (wordRanges.covers range.first range.last ||
      (range.first == 0x1F59 && range.last == 0x1F5F && range.step == 2)) &&
    ((Nat.ble 97 first && Nat.ble last 122) ||
      (Nat.ble 0x80 first && wordRanges.covers first last))

/-- **Characters that are folded belong to words**, and so do those that they are folded to. -/
theorem foldRanges_inWords : foldRanges.all FoldRange.inWords = true := by
  decide +kernel

section FoldRange

variable {range : FoldRange} {n : Nat}

/-- What `FoldRange.inWords` tests, for one character of a run. -/
theorem FoldRange.inWords_spec (hrange : range ∈ foldRanges) (h : range.has n = true) :
    0x80 ≤ n ∧ wordRanges.has n = true ∧
      ((97 ≤ (n + range.offset).toNat ∧ (n + range.offset).toNat ≤ 122) ∨
        (0x80 ≤ (n + range.offset).toNat ∧ wordRanges.has (n + range.offset).toNat = true)) := by
  have hwords := List.all_eq_true.mp foldRanges_inWords range hrange
  rw [FoldRange.has, Bool.and_eq_true, Bool.and_eq_true, decide_eq_true_eq, decide_eq_true_eq,
    beq_iff_eq] at h
  obtain ⟨⟨hfirst, hlast⟩, hstep⟩ := h
  simp only [FoldRange.inWords, Bool.and_eq_true, Bool.or_eq_true, Nat.ble_eq, beq_iff_eq]
    at hwords
  obtain ⟨⟨hascii, hsource⟩, htarget⟩ := hwords
  refine ⟨by omega, ?_, ?_⟩
  · rcases hsource with hcovers | ⟨⟨hlow, hhigh⟩, htwo⟩
    · exact Ranges.has_of_covers hcovers hfirst hlast
    · rw [hlow, htwo] at hstep
      have hcases : n = 0x1F59 ∨ n = 0x1F5B ∨ n = 0x1F5D ∨ n = 0x1F5F := by omega
      rcases hcases with rfl | rfl | rfl | rfl <;> decide +kernel
  · have hlow : (range.first + range.offset).toNat ≤ (n + range.offset).toNat :=
      Int.toNat_le_toNat (by omega)
    have hhigh : (n + range.offset).toNat ≤ (range.last + range.offset).toNat :=
      Int.toNat_le_toNat (by omega)
    rcases htarget with ⟨hletter, hletter'⟩ | ⟨hbeyond, hcovers⟩
    · exact .inl ⟨Nat.le_trans hletter hlow, Nat.le_trans hhigh hletter'⟩
    · exact .inr ⟨Nat.le_trans hbeyond hlow, Ranges.has_of_covers hcovers hlow hhigh⟩

end FoldRange

theorem isWordChar_of_has (hge : 0x80 ≤ c.toNat) (h : wordRanges.has c.toNat = true) :
    isWordChar c = true := by
  rw [isWordChar, if_neg (by omega), h]

theorem isWordChar_of_isAlphanum (h : c.isAlphanum = true) : isWordChar c = true := by
  have hlt : c.toNat < 0x80 := by
    rw [isAlphanum_iff, isAlpha_iff, isUpper_iff, isLower_iff, isDigit_iff] at h
    omega
  rw [isWordChar, if_pos hlt, h, Bool.true_or]

/-- What does not belong to words is not folded. -/
theorem fold_of_not_isWordChar (h : isWordChar c = false) : fold c = c.toNat := by
  unfold fold
  dsimp only
  split
  · split
    · rename_i hupper
      rw [isWordChar_of_isAlphanum (isAlphanum_iff.mpr (.inl (isAlpha_iff.mpr (.inl hupper))))] at h
      exact nomatch h
    · rfl
  · split
    · rename_i range hfound
      have hhas := List.find?_some hfound
      obtain ⟨hbeyond, hword, -⟩ :=
        FoldRange.inWords_spec (List.mem_of_find?_eq_some hfound) hhas
      rw [isWordChar_of_has hbeyond hword] at h
      exact nomatch h
    · rfl

/-- What a word character is folded to belongs to words. -/
theorem isWordChar_of_eq_fold (hd : isWordChar d = true) (h : c.toNat = fold d) :
    isWordChar c = true := by
  have hletter (h : 97 ≤ c.toNat ∧ c.toNat ≤ 122) : isWordChar c = true := by
    have halpha : c.isAlpha = true := isAlpha_iff.mpr (.inr (isLower_iff.mpr h))
    exact isWordChar_of_isAlphanum (isAlphanum_iff.mpr (.inl halpha))
  unfold fold at h
  dsimp only at h
  split at h
  · split at h
    · rename_i hupper
      have hrange := isUpper_iff.mp hupper
      exact hletter (by omega)
    · rwa [Char.toNat_inj.mp h]
  · split at h
    · rename_i range hfound
      have hhas := List.find?_some hfound
      obtain ⟨-, -, htarget⟩ := FoldRange.inWords_spec (List.mem_of_find?_eq_some hfound) hhas
      rw [← h] at htarget
      rcases htarget with hrange | ⟨hbeyond, hword⟩
      · exact hletter hrange
      · exact isWordChar_of_has hbeyond hword
    · rwa [Char.toNat_inj.mp h]

/-- **Characters that are equal up to case belong to words alike.** -/
theorem isWordChar_of_fold_eq (h : fold c = fold d) : isWordChar c = isWordChar d := by
  have hword {c d : Char} (h : fold c = fold d) (hd : isWordChar d = true) :
      isWordChar c = true := by
    cases hc : isWordChar c with
    | true => rfl
    | false =>
      rw [fold_of_not_isWordChar hc] at h
      rw [← hc, isWordChar_of_eq_fold hd h]
  exact Bool.eq_iff_iff.mpr ⟨hword h.symm, hword h⟩

/-- The cases of a letter are folded to one character. -/
theorem fold_eq_of_toLower_eq (h : c.toLower = d.toLower) : fold c = fold d := by
  have hlower (c : Char) : fold c.toLower = fold c := by
    cases hupper : c.isUpper with
    | false => rw [toLower_of_not_isUpper hupper]
    | true =>
      have hnat := toNat_toLower hupper
      have hrange := isUpper_iff.mp hupper
      have hnot : c.toLower.isUpper = false := by
        rw [← Bool.not_eq_true, isUpper_iff]
        omega
      have hfold : fold c = c.toNat + 32 := by
        simp only [fold, hupper, if_true]
        rw [if_pos (by omega)]
      rw [hfold, ← hnat, fold]
      simp only [hnot]
      rw [if_pos (by omega)]
      rfl
  rw [← hlower c, h, hlower d]

end ScreenedQuery.Unicode
