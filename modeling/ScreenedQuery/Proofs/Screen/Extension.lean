import ScreenedQuery.Proofs.Screen.Pattern
import ScreenedQuery.Proofs.Text.Blank

/-!
# Screens with further keywords

A screen looks for all its keywords at once. Nevertheless each of them acts by itself: a screen that
is told more keywords flags what it flagged before and what the new ones are found in, and neither
does one keyword hide another nor does it matter how a list of them is written.

## Main definitions

* `Screen.SameKeywords`: two lists that configure the same keywords
* `Screen.TightenedByKeywords`: a verdict that keywords only tighten, one by one

## Main results

* `Screen.hasKeyword_append`: the keywords of two lists are found where those of one are
* `Screen.tightenedByKeywords_of_base`: what the keywords do to a verdict that looks for them
* `Screen.flags_tightened`: texts and fields are flagged in this way
-/

namespace ScreenedQuery.Screen

open Unicode (AllBlank Encloses trim)

variable {first second : List String} {keyword text : List Char}

/-! ## Lists of keywords -/

/-- **Two lists that configure the same keywords.** -/
def SameKeywords (first second : List String) : Prop :=
  ∀ keyword, Configured first keyword ↔ Configured second keyword

theorem configured_append_iff :
    Configured (first ++ second) keyword ↔
      Configured first keyword ∨ Configured second keyword := by
  simp only [Configured, List.mem_append]
  constructor
  · rintro (husual | ⟨hne, written, hfirst | hsecond, htrim⟩)
    · exact .inl (.inl husual)
    · exact .inl (.inr ⟨hne, written, hfirst, htrim⟩)
    · exact .inr (.inr ⟨hne, written, hsecond, htrim⟩)
  · rintro ((husual | ⟨hne, written, hfirst, htrim⟩) | husual | ⟨hne, written, hsecond, htrim⟩)
    · exact .inl husual
    · exact .inr ⟨hne, written, .inl hfirst, htrim⟩
    · exact .inl husual
    · exact .inr ⟨hne, written, .inr hsecond, htrim⟩

/-- Neither the order of keywords nor their repetition counts. -/
theorem sameKeywords_of_mem_iff (h : ∀ written, written ∈ first ↔ written ∈ second) :
    SameKeywords first second := by
  intro keyword
  simp only [Configured, h]

theorem trim_eq_of_encloses {text inner : List Char} (h : Encloses text inner) :
    trim text = trim inner := by
  -- What is left of the inner text stands between blanks in the outer one as well.
  obtain ⟨before, after, hbefore, hafter, rfl⟩ := h
  obtain ⟨front, behind, hfront, hbehind, hinner⟩ := Unicode.encloses_trim inner
  refine Encloses.trim_eq ⟨before ++ front, behind ++ after, ?_, ?_, ?_⟩
    (fun _ => Unicode.isBlank_head_trim) (fun _ => Unicode.isBlank_last_trim)
  · exact fun c hc => (List.mem_append.mp hc).elim (hbefore c) (hfront c)
  · exact fun c hc => (List.mem_append.mp hc).elim (hbehind c) (hafter c)
  · conv => lhs; rw [hinner]
    simp

theorem trim_eq_nil_iff : trim text = [] ↔ AllBlank text := by
  constructor
  · intro h
    obtain ⟨before, after, hbefore, hafter, htext⟩ := Unicode.encloses_trim text
    rw [h, List.nil_append] at htext
    intro c hc
    rw [htext, List.mem_append] at hc
    exact hc.elim (hbefore c) (hafter c)
  · intro h
    exact Encloses.trim_eq ⟨text, [], h, List.forall_mem_nil _, by simp⟩ (by simp) (by simp)

/-- Blanks around keywords do not count. -/
theorem sameKeywords_of_encloses
    (h : List.Forall₂ (fun padded bare => Encloses padded.toList bare.toList) first second) :
    SameKeywords first second := by
  -- Keyword by keyword the same is left.
  have htrims : first.map (trim ·.toList) = second.map (trim ·.toList) := by
    induction h with
    | nil => rfl
    | cons hpadded _ ih => rw [List.map_cons, List.map_cons, trim_eq_of_encloses hpadded, ih]
  intro keyword
  have hmem : keyword ∈ first.map (trim ·.toList) ↔ keyword ∈ second.map (trim ·.toList) := by
    rw [htrims]
  rw [List.mem_map, List.mem_map] at hmem
  exact or_congr_right (and_congr_right fun _ => hmem)

/-- Keywords that are nothing but blanks do not count. -/
theorem withKeywords_filter (extra : List String) :
    withKeywords (extra.filter fun written => ¬AllBlank written.toList) = withKeywords extra := by
  induction extra with
  | nil => rfl
  | cons written extra ih =>
    have hlists := congrArg Screen.extra ih
    by_cases hblank : AllBlank written.toList
    · simpa [withKeywords, hblank, trim_eq_nil_iff.mpr hblank] using hlists
    · have hne : trim written.toList ≠ [] := fun h => hblank (trim_eq_nil_iff.mp h)
      simpa [withKeywords, hblank, hne] using hlists

theorem withKeywords_of_blank {extra : List String}
    (h : ∀ written ∈ extra, AllBlank written.toList) : withKeywords extra = {} := by
  rw [← withKeywords_filter, List.filter_eq_nil_iff.mpr fun written hwritten => ?_]
  · rfl
  · simpa using h written hwritten

/-! ## The search for keywords -/

theorem hasKeyword_withKeywords_iff {extra : List String} :
    (withKeywords extra).hasKeyword text = true ↔
      ∃ keyword, Configured extra keyword ∧ occursAsWord keyword text = true := by
  simp only [hasKeyword, List.any_eq_true, mem_keywords_iff]

/-- **The keywords of two lists are found** where those of one of them are. -/
theorem hasKeyword_append :
    (withKeywords (first ++ second)).hasKeyword text =
      ((withKeywords first).hasKeyword text || (withKeywords second).hasKeyword text) := by
  rw [Bool.eq_iff_iff, Bool.or_eq_true, hasKeyword_withKeywords_iff, hasKeyword_withKeywords_iff,
    hasKeyword_withKeywords_iff, ← exists_or]
  exact exists_congr fun keyword => by rw [configured_append_iff, or_and_right]

theorem SameKeywords.hasKeyword_eq (h : SameKeywords first second) :
    (withKeywords first).hasKeyword text = (withKeywords second).hasKeyword text := by
  rw [Bool.eq_iff_iff, hasKeyword_withKeywords_iff, hasKeyword_withKeywords_iff]
  exact exists_congr fun keyword => and_congr_left' (h keyword)

/-- What is found only because of further keywords is found because of one of them. -/
theorem exists_single_of_hasKeyword {extra : List String}
    (h : (withKeywords extra).hasKeyword text = true) (husual : hasKeyword {} text = false) :
    ∃ written ∈ extra, trim written.toList ≠ [] ∧
      occursAsWord (trim written.toList) text = true := by
  obtain ⟨keyword, hkeyword | ⟨hne, written, hwritten, rfl⟩, hoccurs⟩ :=
    hasKeyword_withKeywords_iff.mp h
  · -- A usual keyword would have been found without the further ones.
    have hfound : hasKeyword {} text = true :=
      List.any_eq_true.mpr ⟨keyword, List.mem_append_left _ hkeyword, hoccurs⟩
    rw [husual] at hfound
    cases hfound
  · exact ⟨written, hwritten, hne, hoccurs⟩

/-! ## Verdicts -/

/-- **A verdict that further keywords only tighten**, one by one. -/
structure TightenedByKeywords (flags : Screen → String → Bool) : Prop where
  /-- Apart from what does not depend on keywords, one pattern is looked for: all the keywords. -/
  merged : ∃ base : String → Bool, ∀ extra candidate,
    flags (withKeywords extra) candidate = true ↔ base candidate = true ∨
      (Pattern.wholeWord (withKeywords extra).keywords).Occurs candidate.toList
  /-- The keywords of two lists flag what those of one of them flag. -/
  append : ∀ first second candidate, flags (withKeywords (first ++ second)) candidate =
    (flags (withKeywords first) candidate || flags (withKeywords second) candidate)
  /-- What is flagged without further keywords is flagged with any. -/
  usual : ∀ extra candidate, flags {} candidate = true →
    flags (withKeywords extra) candidate = true
  /-- Neither the order of keywords nor their repetition counts. -/
  members : ∀ first second : List String, (∀ written, written ∈ first ↔ written ∈ second) →
    flags (withKeywords first) = flags (withKeywords second)
  /-- Blanks around keywords do not count. -/
  padding : ∀ first second : List String,
    List.Forall₂ (fun padded bare => Encloses padded.toList bare.toList) first second →
      flags (withKeywords first) = flags (withKeywords second)
  /-- Keywords that are nothing but blanks do not count. -/
  blank : ∀ extra : List String,
    flags (withKeywords (extra.filter fun written => ¬AllBlank written.toList)) =
        flags (withKeywords extra) ∧
      ((∀ written ∈ extra, AllBlank written.toList) → withKeywords extra = {})
  /-- What is flagged with further keywords only is flagged because of a single one. -/
  single : ∀ extra candidate, flags (withKeywords extra) candidate = true →
    flags {} candidate = false → ∃ written ∈ extra,
      (Pattern.wholeWord [trim written.toList]).Occurs candidate.toList ∧
      ∀ others, written ∈ others → flags (withKeywords others) candidate = true

/-- **What keywords do to a verdict** that looks for them and else does not depend on them. -/
theorem tightenedByKeywords_of_base {flags : Screen → String → Bool} (base : String → Bool)
    (h : ∀ screen candidate,
      flags screen candidate = (base candidate || screen.hasKeyword candidate.toList)) :
    TightenedByKeywords flags where
  merged := by
    refine ⟨base, fun extra candidate => ?_⟩
    rw [h, Bool.or_eq_true, hasKeyword_iff_occurs]
  append := by
    intro first second candidate
    rw [h, h, h, hasKeyword_append]
    cases base candidate <;> rfl
  usual := by
    intro extra candidate hflags
    rw [h, Bool.or_eq_true] at hflags ⊢
    refine hflags.imp_right fun hkeyword => ?_
    -- The list of no further keywords stands before any other.
    have happend := @hasKeyword_append [] extra candidate.toList
    rw [List.nil_append] at happend
    rw [happend, Bool.or_eq_true]
    exact .inl hkeyword
  members := by
    intro first second hmem
    funext candidate
    rw [h, h, (sameKeywords_of_mem_iff hmem).hasKeyword_eq]
  padding := by
    intro first second hpadded
    funext candidate
    rw [h, h, (sameKeywords_of_encloses hpadded).hasKeyword_eq]
  blank := by
    intro extra
    exact ⟨by rw [withKeywords_filter], withKeywords_of_blank⟩
  single := by
    intro extra candidate hflags husual
    rw [h, Bool.or_eq_false_iff] at husual
    rw [h, husual.1, Bool.false_or] at hflags
    obtain ⟨written, hwritten, hne, hoccurs⟩ := exists_single_of_hasKeyword hflags husual.2
    refine ⟨written, hwritten, ?_, fun others hothers => ?_⟩
    · exact Pattern.occurs_wholeWord_iff.mpr ⟨_, List.mem_singleton_self _, hoccurs⟩
    · rw [h, Bool.or_eq_true]
      refine .inr (hasKeyword_withKeywords_iff.mpr ⟨_, .inr ⟨hne, written, hothers, rfl⟩, hoccurs⟩)

/-- **Further keywords only tighten a screen**, one by one, for texts and for field names. -/
theorem flags_tightened :
    TightenedByKeywords Screen.flagsText ∧ TightenedByKeywords Screen.flagsField := by
  constructor
  · refine tightenedByKeywords_of_base
      (fun text => forbiddenSequences.any (occursIn · text.toList) || !quotesPair text.toList ||
        !nests text.toList || hasTautology text.toList) fun screen text => ?_
    -- The keywords are looked for before the tautologies.
    rw [flagsText, Bool.or_right_comm]
  · exact tightenedByKeywords_of_base (fun field => !isFieldName field.toList) fun _ _ => rfl

example : (withKeywords [" a.c ", "union"]).flagsText "x = abc" = false := by decide

end ScreenedQuery.Screen
