/-!
# Letter case

Two texts may differ in the case of their letters only, the letters of ASCII. What is no letter is
then the same in both.

## Main definitions

* `SameLetters`: two texts that are the same up to the case of letters

## Main results

* `SameLetters.eq_of_not_isAlpha`: a text without letters is the same as no other
* `SameLetters.head`, `SameLetters.last`: what is excluded at an end of a text, letters apart
-/

namespace ScreenedQuery

variable {c d : Char}

/-! ## Characters -/

theorem isUpper_iff : c.isUpper = true ↔ 65 ≤ c.toNat ∧ c.toNat ≤ 90 :=
  decide_eq_true_iff.trans (and_congr UInt32.le_iff_toNat_le UInt32.le_iff_toNat_le)

theorem isLower_iff : c.isLower = true ↔ 97 ≤ c.toNat ∧ c.toNat ≤ 122 :=
  (Bool.and_eq_true_iff.trans (and_congr decide_eq_true_iff decide_eq_true_iff)).trans
    (and_congr UInt32.le_iff_toNat_le UInt32.le_iff_toNat_le)

theorem isDigit_iff : c.isDigit = true ↔ 48 ≤ c.toNat ∧ c.toNat ≤ 57 :=
  (Bool.and_eq_true_iff.trans (and_congr decide_eq_true_iff decide_eq_true_iff)).trans
    (and_congr UInt32.le_iff_toNat_le UInt32.le_iff_toNat_le)

theorem isAlpha_iff : c.isAlpha = true ↔ c.isUpper = true ∨ c.isLower = true :=
  Bool.or_eq_true_iff

theorem isAlphanum_iff : c.isAlphanum = true ↔ c.isAlpha = true ∨ c.isDigit = true :=
  Bool.or_eq_true_iff

/-- Only capital letters have another lower case. -/
theorem toLower_of_not_isUpper (h : c.isUpper = false) : c.toLower = c :=
  dif_neg (of_decide_eq_false h)

/-- A capital letter is followed by its lower case 32 characters later. -/
theorem toNat_toLower (h : c.isUpper = true) : c.toLower.toNat = c.toNat + 32 := by
  have hupper := isUpper_iff.mp h
  have hval : c.toLower.val = c.val + 32 := by
    unfold Char.toLower
    rw [dif_pos (of_decide_eq_true h)]
    rfl
  rw [← Char.toNat_val, hval, UInt32.toNat_add, Char.toNat_val]
  exact Nat.mod_eq_of_lt (by change c.toNat + 32 < 2 ^ 32; omega)

/-- What is no letter has no other case. -/
theorem toLower_eq_self (h : c.isAlpha = false) : c.toLower = c :=
  toLower_of_not_isUpper (Bool.or_eq_false_iff.mp h).1

/-- A letter is a letter in lower case. -/
theorem isAlpha_toLower (h : c.isAlpha = true) : c.toLower.isAlpha = true := by
  cases hupper : c.isUpper with
  | true =>
    have hrange := isUpper_iff.mp hupper
    refine isAlpha_iff.mpr (.inr (isLower_iff.mpr ?_))
    rw [toNat_toLower hupper]
    omega
  | false => rwa [toLower_of_not_isUpper hupper]

/-- What is no letter differs from everything else also up to case. -/
theorem eq_of_toLower_eq (h : c.toLower = d.toLower) (hc : c.isAlpha = false) : c = d := by
  rw [toLower_eq_self hc] at h
  have hd : d.isAlpha = false := by
    rw [← Bool.not_eq_true]
    intro halpha
    have hlower := isAlpha_toLower halpha
    rw [← h, hc] at hlower
    exact nomatch hlower
  rw [h, toLower_eq_self hd]

/-! ## Texts -/

/-- **Two texts that are the same up to the case of letters.** -/
def SameLetters (first second : List Char) : Prop :=
  first.map Char.toLower = second.map Char.toLower

instance (first second : List Char) : Decidable (SameLetters first second) :=
  inferInstanceAs (Decidable (_ = _))

namespace SameLetters

variable {first second : List Char}

theorem symm (h : SameLetters first second) : SameLetters second first := Eq.symm h

/-- A text without letters is the same as no other. -/
theorem eq_of_not_isAlpha (h : SameLetters first second)
    (hfirst : ∀ c ∈ first, c.isAlpha = false) : first = second := by
  induction first generalizing second with
  | nil => exact (List.map_eq_nil_iff.mp h.symm).symm
  | cons c first ih =>
    obtain ⟨d, second, rfl, hd, hrest⟩ := List.map_eq_cons_iff.mp h.symm
    rw [List.forall_mem_cons] at hfirst
    rw [eq_of_toLower_eq hd.symm hfirst.1, ih hrest.symm hfirst.2]

/-- What holds of no letter, and not of a character, does not hold of the other case. -/
theorem not_of_map_eq {p : Char → Bool} (hp : ∀ c, p c = true → c.isAlpha = false)
    {one other : Option Char} (h : one.map Char.toLower = other.map Char.toLower)
    (hother : ∀ d ∈ other, p d = false) : ∀ c ∈ one, p c = false := by
  rintro c rfl
  obtain ⟨d, rfl, hd⟩ := Option.map_eq_some_iff.mp h.symm
  rw [← Bool.not_eq_true]
  intro hc
  rw [eq_of_toLower_eq hd.symm (hp c hc)] at hc
  rw [hother d rfl] at hc
  exact nomatch hc

variable {p : Char → Bool}

/-- What is excluded at the start of a text, letters apart, is excluded in every case. -/
theorem head (h : SameLetters first second) (hp : ∀ c, p c = true → c.isAlpha = false)
    (hsecond : ∀ d ∈ second.head?, p d = false) : ∀ c ∈ first.head?, p c = false := by
  refine not_of_map_eq hp ?_ hsecond
  rw [← List.head?_map, ← List.head?_map, h]

/-- What is excluded at the end of a text, letters apart, is excluded in every case. -/
theorem last (h : SameLetters first second) (hp : ∀ c, p c = true → c.isAlpha = false)
    (hsecond : ∀ d ∈ second.getLast?, p d = false) : ∀ c ∈ first.getLast?, p c = false := by
  refine not_of_map_eq hp ?_ hsecond
  rw [← List.getLast?_map, ← List.getLast?_map, h]

end SameLetters

end ScreenedQuery
