import ScreenedQuery.Proofs.Unicode.Folding
import ScreenedQuery.Screen.Basic

/-!
# Where keywords are denied

A keyword is denied where it stands between two word boundaries. A place with no word character
next to it is between boundaries if the keyword starts and ends with word characters; if it does
not, the keyword is denied at none of these places.

## Main definitions

* `Screen.SameFold`: two texts that are equal up to case
* `Screen.StandsApart`: a place of a text with no word character next to it
* `Screen.HasWordEnds`: a text that starts and ends with word characters
* `Screen.Configured`: the keywords that a screen is told to deny

## Main results

* `Screen.occursAsWord_iff`: where a keyword occurs as a word
* `Screen.flagsText_apart`: which keywords are denied where they stand apart
-/

namespace ScreenedQuery.Screen

open Unicode (fold isBoundary isWordAt isWordChar sameFold)

/-! ## Occurrences -/

/-- **Two texts that are equal up to case.** -/
def SameFold (first second : List Char) : Prop := first.map fold = second.map fold

variable {keyword word text rest before after : List Char}

theorem sameFold_of_sameLetters (h : SameLetters word keyword) : SameFold word keyword := by
  induction word generalizing keyword with
  | nil => rw [List.map_eq_nil_iff.mp h.symm, SameFold]
  | cons c word ih =>
    obtain ⟨d, keyword, rfl, hd, hrest⟩ := List.map_eq_cons_iff.mp h.symm
    rw [SameFold, List.map_cons, List.map_cons, Unicode.fold_eq_of_toLower_eq hd, ih hrest.symm]

/-- The character in front of what follows a text: its last one, or the one in front of it. -/
theorem getLast?_cons_or (c : Char) (text : List Char) (place : Option Char) :
    (c :: text).getLast?.or place = text.getLast?.or (some c) := by
  cases text with
  | nil => rfl
  | cons d text => simp [List.getLast?_cons]

/-- **What is read in any case** stands at the start, equal up to case. -/
theorem readFolded_eq_some_iff {place last : Option Char} :
    readFolded place keyword text = some (last, rest) ↔
      ∃ word, text = word ++ rest ∧ SameFold word keyword ∧ last = word.getLast?.or place := by
  induction keyword generalizing place text with
  | nil =>
    simp only [readFolded, Option.some.injEq, Prod.mk.injEq, SameFold, List.map_nil,
      List.map_eq_nil_iff]
    constructor
    · rintro ⟨rfl, rfl⟩
      exact ⟨[], rfl, rfl, rfl⟩
    · rintro ⟨_, rfl, rfl, rfl⟩
      exact ⟨rfl, rfl⟩
  | cons c keyword ih =>
    cases text with
    | nil =>
      refine iff_of_false (by simp [readFolded]) ?_
      rintro ⟨word, htext, hsame, -⟩
      obtain ⟨rfl, -⟩ := List.append_eq_nil_iff.mp htext.symm
      cases hsame
    | cons d text =>
      rw [readFolded]
      split
      · rename_i hfold
        rw [sameFold, beq_iff_eq] at hfold
        rw [ih]
        constructor
        · rintro ⟨word, rfl, hsame, rfl⟩
          refine ⟨d :: word, rfl, ?_, (getLast?_cons_or d word place).symm⟩
          rw [SameFold, List.map_cons, List.map_cons, hfold, hsame]
        · rintro ⟨word, htext, hsame, rfl⟩
          obtain ⟨e, word, rfl, he, hrest⟩ := List.map_eq_cons_iff.mp hsame
          obtain ⟨rfl, rfl⟩ := List.cons.inj htext
          exact ⟨word, rfl, hrest, getLast?_cons_or d word place⟩
      · rename_i hfold
        refine iff_of_false (by simp) ?_
        rintro ⟨word, htext, hsame, -⟩
        obtain ⟨e, word, rfl, he, hrest⟩ := List.map_eq_cons_iff.mp hsame
        obtain ⟨rfl, rfl⟩ := List.cons.inj htext
        exact hfold (by rw [sameFold, he, beq_self_eq_true])

/-- A text starts with a keyword: it stands there up to case, between two word boundaries. -/
theorem startsWithWord_iff {place : Option Char} : startsWithWord keyword place text = true ↔
    ∃ word rest, text = word ++ rest ∧ SameFold word keyword ∧
      isBoundary place text.head? = true ∧
      isBoundary (word.getLast?.or place) rest.head? = true := by
  rw [startsWithWord, Bool.and_eq_true]
  constructor
  · rintro ⟨hfront, hread⟩
    split at hread
    · rename_i last rest hfound
      obtain ⟨word, rfl, hsame, rfl⟩ := readFolded_eq_some_iff.mp hfound
      exact ⟨word, rest, rfl, hsame, hfront, hread⟩
    · exact nomatch hread
  · rintro ⟨word, rest, rfl, hsame, hfront, hbehind⟩
    refine ⟨hfront, ?_⟩
    rw [readFolded_eq_some_iff.mpr ⟨word, rfl, hsame, rfl⟩]
    exact hbehind

/-- A keyword occurs at one of the places of a text. -/
theorem occursAsWordFrom_iff {place : Option Char} : occursAsWordFrom keyword place text = true ↔
    ∃ before rest, text = before ++ rest ∧
      startsWithWord keyword (before.getLast?.or place) rest = true := by
  induction text generalizing place with
  | nil =>
    constructor
    · intro h
      exact ⟨[], [], rfl, h⟩
    · rintro ⟨before, rest, htext, h⟩
      obtain ⟨rfl, rfl⟩ := List.append_eq_nil_iff.mp htext.symm
      exact h
  | cons c text ih =>
    rw [occursAsWordFrom, Bool.or_eq_true, ih]
    constructor
    · rintro (h | ⟨before, rest, rfl, h⟩)
      · exact ⟨[], c :: text, rfl, h⟩
      · exact ⟨c :: before, rest, rfl, by rwa [getLast?_cons_or]⟩
    · rintro ⟨before, rest, htext, h⟩
      cases before with
      | nil => exact .inl (by rw [htext]; exact h)
      | cons d before =>
        obtain ⟨rfl, rfl⟩ := List.cons.inj htext
        exact .inr ⟨before, rest, rfl, by rwa [← getLast?_cons_or]⟩

/-- **A keyword occurs as a word** where it stands, up to case, between two word boundaries. -/
theorem occursAsWord_iff : occursAsWord keyword text = true ↔
    ∃ before word after, text = before ++ (word ++ after) ∧ SameFold word keyword ∧
      isBoundary before.getLast? (word ++ after).head? = true ∧
      isBoundary (word.getLast?.or before.getLast?) after.head? = true := by
  rw [occursAsWord, occursAsWordFrom_iff]
  constructor
  · rintro ⟨before, rest, rfl, hstarts⟩
    rw [Option.or_none] at hstarts
    obtain ⟨word, after, rfl, hword⟩ := startsWithWord_iff.mp hstarts
    exact ⟨before, word, after, rfl, hword⟩
  · rintro ⟨before, word, after, rfl, hword⟩
    refine ⟨before, word ++ after, rfl, ?_⟩
    rw [Option.or_none]
    exact startsWithWord_iff.mpr ⟨word, after, rfl, hword⟩

/-! ## Whole words -/

/-- **A place with no word character next to it**: neither the last one before it nor the first one
behind it belongs to words. -/
structure StandsApart (before after : List Char) : Prop where
  front : ∀ c ∈ before.getLast?, isWordChar c = false
  behind : ∀ c ∈ after.head?, isWordChar c = false

/-- **A text that starts and ends with word characters.** -/
structure HasWordEnds (text : List Char) : Prop where
  first : ∃ c ∈ text.head?, isWordChar c = true
  last : ∃ c ∈ text.getLast?, isWordChar c = true

theorem isWordAt_iff {place : Option Char} :
    isWordAt place = true ↔ ∃ c ∈ place, isWordChar c = true := by
  cases place <;> simp [isWordAt]

theorem isWordAt_eq_false {place : Option Char} (h : ∀ c ∈ place, isWordChar c = false) :
    isWordAt place = false := by
  cases place with
  | none => rfl
  | some c => exact h c rfl

/-- Case does not matter to whether a place holds a word character. -/
theorem isWordAt_of_map_eq {one other : Option Char} (h : one.map fold = other.map fold) :
    isWordAt one = isWordAt other := by
  cases one with
  | none => rw [Option.map_eq_none_iff.mp h.symm]
  | some c =>
    obtain ⟨d, rfl, hd⟩ := Option.map_eq_some_iff.mp h.symm
    exact Unicode.isWordChar_of_fold_eq hd.symm

theorem SameFold.ne_nil (h : SameFold word keyword) (hne : keyword ≠ []) : word ≠ [] := by
  rintro rfl
  exact hne (List.map_eq_nil_iff.mp h.symm)

/-- **Where a keyword stands apart**, the boundaries are those of its own ends. -/
theorem boundaries_iff (hne : keyword ≠ []) (hsame : SameFold word keyword)
    (hapart : StandsApart before after) :
    (isBoundary before.getLast? (word ++ after).head? = true ∧
      isBoundary (word.getLast?.or before.getLast?) after.head? = true) ↔ HasWordEnds keyword := by
  have hhead : (word ++ after).head? = word.head? := by
    rw [List.head?_append, List.head?_eq_some_head (hsame.ne_nil hne), Option.some_or]
  have hlast : word.getLast?.or before.getLast? = word.getLast? := by
    rw [List.getLast?_eq_some_getLast (hsame.ne_nil hne)]
    rfl
  have hfirst : isWordAt word.head? = isWordAt keyword.head? :=
    isWordAt_of_map_eq (by rw [← List.head?_map, ← List.head?_map, hsame])
  have hends : isWordAt word.getLast? = isWordAt keyword.getLast? :=
    isWordAt_of_map_eq (by rw [← List.getLast?_map, ← List.getLast?_map, hsame])
  rw [hhead, hlast, isBoundary, isBoundary, isWordAt_eq_false hapart.front,
    isWordAt_eq_false hapart.behind, hfirst, hends, Bool.false_bne, Bool.bne_false, isWordAt_iff,
    isWordAt_iff]
  exact ⟨fun h => ⟨h.1, h.2⟩, fun h => ⟨h.first, h.last⟩⟩

/-- A keyword that starts and ends with word characters occurs wherever it stands apart. -/
theorem occursAsWord_of_apart (hends : HasWordEnds keyword) (hsame : SameFold word keyword)
    (hapart : StandsApart before after) :
    occursAsWord keyword (before ++ (word ++ after)) = true := by
  have hne : keyword ≠ [] := by
    rintro rfl
    obtain ⟨c, hc, -⟩ := hends.first
    exact nomatch hc
  exact occursAsWord_iff.mpr
    ⟨before, word, after, rfl, hsame, (boundaries_iff hne hsame hapart).mpr hends⟩

/-- Any other keyword does not occur in a text in which it always stands apart. -/
theorem occursAsWord_eq_false (hends : ¬HasWordEnds keyword) (hne : keyword ≠ [])
    (hapart : ∀ before word after, text = before ++ (word ++ after) → SameFold word keyword →
      StandsApart before after) : occursAsWord keyword text = false := by
  rw [← Bool.not_eq_true]
  intro hoccurs
  obtain ⟨before, word, after, htext, hsame, hboundaries⟩ := occursAsWord_iff.mp hoccurs
  exact hends ((boundaries_iff hne hsame (hapart before word after htext hsame)).mp hboundaries)

/-! ## Configured keywords -/

/-- **The keywords that a screen is told to deny**: the usual ones, and the further ones without the
blanks around them, unless nothing is left. -/
def Configured (extra : List String) (keyword : List Char) : Prop :=
  keyword ∈ defaultKeywords.map String.toList ∨
    (keyword ≠ [] ∧ ∃ written ∈ extra, Unicode.trim written.toList = keyword)

theorem mem_keywords_iff {extra : List String} :
    keyword ∈ (withKeywords extra).keywords ↔ Configured extra keyword := by
  simp only [keywords, withKeywords, Configured, List.mem_append, List.mem_filter, List.mem_map,
    Bool.not_eq_true', List.isEmpty_eq_false_iff]
  exact or_congr Iff.rfl and_comm

/-- The usual keywords are words. -/
theorem hasWordEnds_default :
    ∀ keyword ∈ defaultKeywords.map String.toList, HasWordEnds keyword := by
  have hends (keyword : List Char)
      (h : (isWordAt keyword.head? && isWordAt keyword.getLast?) = true) :
      HasWordEnds keyword := by
    rw [Bool.and_eq_true, isWordAt_iff, isWordAt_iff] at h
    exact ⟨h.1, h.2⟩
  intro keyword hkeyword
  refine hends keyword ?_
  revert keyword
  decide

/-- A keyword that does not occur in a text changes nothing about it. -/
theorem flagsText_append_keyword {extra : List String} {written text : String}
    (h : Unicode.trim written.toList = [] ∨
      occursAsWord (Unicode.trim written.toList) text.toList = false) :
    (withKeywords (extra ++ [written])).flagsText text = (withKeywords extra).flagsText text := by
  have hkeyword : (withKeywords (extra ++ [written])).hasKeyword text.toList =
      (withKeywords extra).hasKeyword text.toList := by
    rw [hasKeyword, hasKeyword, Bool.eq_iff_iff, List.any_eq_true, List.any_eq_true]
    simp only [mem_keywords_iff, Configured, List.mem_append, List.mem_singleton]
    constructor
    · rintro ⟨keyword, hdefault | ⟨hne, other, hother | rfl, htrim⟩, hoccurs⟩
      · exact ⟨keyword, .inl hdefault, hoccurs⟩
      · exact ⟨keyword, .inr ⟨hne, other, hother, htrim⟩, hoccurs⟩
      · rw [htrim] at h
        rcases h with h | h
        · exact absurd h hne
        · rw [h] at hoccurs
          exact nomatch hoccurs
    · rintro ⟨keyword, hdefault | ⟨hne, other, hother, htrim⟩, hoccurs⟩
      · exact ⟨keyword, .inl hdefault, hoccurs⟩
      · exact ⟨keyword, .inr ⟨hne, other, .inl hother, htrim⟩, hoccurs⟩
  simp only [flagsText, hkeyword]

/-- **Which keywords are denied where they stand apart.** Take the screen of any further keywords.

* A keyword that starts and ends with word characters is denied, in any case, wherever no word
  character is next to it.
* The usual keywords are of this kind.
* A further keyword of any other kind is not denied where it stands apart: for a text in which it
  stands nowhere else it might as well have been left out. -/
theorem flagsText_apart (extra : List String) :
    (∀ keyword, Configured extra keyword → HasWordEnds keyword →
      ∀ before word after, SameLetters word keyword → StandsApart before after →
        (withKeywords extra).flagsText (String.ofList (before ++ (word ++ after))) = true) ∧
    (∀ keyword ∈ defaultKeywords.map String.toList, HasWordEnds keyword) ∧
    ∀ written : String, ¬HasWordEnds (Unicode.trim written.toList) → ∀ text : String,
      (∀ before word after, text.toList = before ++ (word ++ after) →
        SameFold word (Unicode.trim written.toList) → StandsApart before after) →
      (withKeywords (extra ++ [written])).flagsText text = (withKeywords extra).flagsText text := by
  refine ⟨?_, hasWordEnds_default, ?_⟩
  · intro keyword hconfigured hends before word after hsame hapart
    refine flagsText_of_keyword (mem_keywords_iff.mpr hconfigured) ?_
    rw [String.toList_ofList]
    exact occursAsWord_of_apart hends (sameFold_of_sameLetters hsame) hapart
  · intro written hends text hapart
    refine flagsText_append_keyword ?_
    by_cases hne : Unicode.trim written.toList = []
    · exact .inl hne
    · exact .inr (occursAsWord_eq_false hends hne hapart)

/-- A further keyword in front of a parenthesis, in capitals. -/
theorem flagsText_apart_sleep :
    Configured ["sleep "] "sleep".toList ∧ HasWordEnds "sleep".toList ∧
      SameLetters "SLEEP".toList "sleep".toList ∧ StandsApart "id = ".toList "(5)".toList ∧
      (withKeywords ["sleep "]).flagsText "id = SLEEP(5)" = true := by
  have hconfigured : Configured ["sleep "] "sleep".toList :=
    .inr ⟨by decide, "sleep ", List.mem_singleton_self _, by decide⟩
  have hends : HasWordEnds "sleep".toList := ⟨⟨'s', rfl, by decide⟩, ⟨'p', rfl, by decide⟩⟩
  have hapart : StandsApart "id = ".toList "(5)".toList := by
    constructor
    · rintro c ⟨⟩
      decide
    · rintro c ⟨⟩
      decide
  have hsame : SameLetters "SLEEP".toList "sleep".toList := by decide
  have hflags := (flagsText_apart ["sleep "]).1 _ hconfigured hends _ _ _ hsame hapart
  have htext : String.ofList ("id = ".toList ++ ("SLEEP".toList ++ "(5)".toList)) =
      "id = SLEEP(5)" := by decide
  rw [htext] at hflags
  exact ⟨hconfigured, hends, hsame, hapart, hflags⟩

/-- **A keyword that starts with another character is not denied**, although it stands apart. -/
theorem flagsText_not_apart :
    Configured ["@@version"] "@@version".toList ∧
      "id = @@version".toList = "id = ".toList ++ ("@@version".toList ++ []) ∧
      SameLetters "@@version".toList "@@version".toList ∧ StandsApart "id = ".toList [] ∧
      (withKeywords ["@@version"]).flagsText "id = @@version" = false := by
  refine ⟨?_, by decide, rfl, ⟨?_, nofun⟩, by decide⟩
  · exact .inr ⟨by decide, "@@version", List.mem_singleton_self _, by decide⟩
  · rintro c ⟨⟩
    decide

end ScreenedQuery.Screen
