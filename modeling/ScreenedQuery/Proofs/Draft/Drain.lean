import ScreenedQuery.Proofs.Draft.Rules

/-!
# Draining fragments

A draft takes fragments until the rules refuse one. What is left is the draft of the fragments
before the refused one.

## Main definitions

* `Draft.AdmitsAll`: the rules on all of a row of fragments, each behind those before it

## Main results

* `Draft.admitsAll_or_refuses`: a row is admitted, or there is a first fragment that is refused
* `Draft.drain_of_admitsAll`, `Draft.drain_of_refuses`: what a draft makes of either
* `Draft.Refuses.first_unique`: there is one first fragment that is refused
-/

namespace ScreenedQuery.Draft

variable {backend : Option Backend} {before : List Fragment}

/-- **The rules on all of a row of fragments** behind others, each behind those before it. -/
def AdmitsAll (backend : Option Backend) (before fragments : List Fragment) : Prop :=
  ∀ middle fragment after, fragments = middle ++ fragment :: after →
    Admits backend (before ++ middle) fragment

theorem admitsAll_nil : AdmitsAll backend before [] := by
  intro middle fragment after h
  simp at h

/-- The first fragment of a row stands behind those before the row. -/
theorem admitsAll_cons_iff {fragment : Fragment} {rest : List Fragment} :
    AdmitsAll backend before (fragment :: rest) ↔
      Admits backend before fragment ∧ AdmitsAll backend (before ++ [fragment]) rest := by
  constructor
  · intro h
    refine ⟨by simpa using h [] fragment rest rfl, fun middle other after heq => ?_⟩
    simpa using h (fragment :: middle) other after (by simp [heq])
  · rintro ⟨hfirst, hrest⟩ middle other after heq
    -- Either the fragment in question is the first one, or it stands in the rest.
    cases middle with
    | nil =>
      obtain ⟨rfl, -⟩ := List.cons.inj heq
      simpa using hfirst
    | cons head middle =>
      obtain ⟨rfl, htail⟩ := List.cons.inj heq
      simpa using hrest middle other after htail

/-- A row is admitted when its beginning is, and the rest is behind it. -/
theorem admitsAll_append_iff {first second : List Fragment} :
    AdmitsAll backend before (first ++ second) ↔
      AdmitsAll backend before first ∧ AdmitsAll backend (before ++ first) second := by
  induction first generalizing before with
  | nil => simp [admitsAll_nil]
  | cons fragment first ih =>
    rw [List.cons_append, admitsAll_cons_iff, admitsAll_cons_iff, ih, and_assoc]
    simp

/-- A fragment that is not admitted is refused for some cause. -/
theorem admits_or_refuses (backend : Option Backend) (before : List Fragment)
    (fragment : Fragment) :
    Admits backend before fragment ∨ ∃ error, Refuses backend before fragment error := by
  cases haccept : (collect before).accept backend fragment with
  | ok draft => exact .inl (accept_collect_eq_ok_iff.mp haccept).1
  | error error => exact .inr ⟨error, accept_collect_eq_error_iff.mp haccept⟩

/-- **A row of fragments is admitted, or there is a first one that is refused.** -/
theorem admitsAll_or_refuses (backend : Option Backend) (before fragments : List Fragment) :
    AdmitsAll backend before fragments ∨
      ∃ middle fragment after error, fragments = middle ++ fragment :: after ∧
        AdmitsAll backend before middle ∧ Refuses backend (before ++ middle) fragment error := by
  -- The fragments before grow by each one that is admitted.
  induction fragments generalizing before with
  | nil => exact .inl admitsAll_nil
  | cons fragment rest ih =>
    rcases admits_or_refuses backend before fragment with hadmits | ⟨error, hrefuses⟩
    · rcases ih (before ++ [fragment]) with
        hall | ⟨middle, refused, after, error, rfl, hall, hrefuses⟩
      · exact .inl (admitsAll_cons_iff.mpr ⟨hadmits, hall⟩)
      · exact .inr ⟨fragment :: middle, refused, after, error, rfl,
          admitsAll_cons_iff.mpr ⟨hadmits, hall⟩, by simpa using hrefuses⟩
    · exact .inr ⟨[], fragment, rest, error, rfl, admitsAll_nil, by simpa using hrefuses⟩

/-- Fragments that the rules admit are all accepted. -/
theorem drain_of_admitsAll {fragments : List Fragment}
    (h : AdmitsAll backend before fragments) :
    drain backend (collect before) fragments =
      ⟨collect (before ++ fragments), fragments.length, none, []⟩ := by
  induction fragments generalizing before with
  | nil => simp [drain]
  | cons fragment rest ih =>
    obtain ⟨hadmits, hrest⟩ := admitsAll_cons_iff.mp h
    rw [drain, accept_collect_eq_ok_iff.mpr ⟨hadmits, rfl⟩]
    dsimp only
    rw [ih hrest]
    simp

/-- The first fragment that the rules refuse is refused, and none behind it is looked at. -/
theorem drain_of_refuses {middle : List Fragment} {fragment : Fragment} {error : QueryError}
    (hall : AdmitsAll backend before middle)
    (hrefuses : Refuses backend (before ++ middle) fragment error) (after : List Fragment) :
    drain backend (collect before) (middle ++ fragment :: after) =
      ⟨(collect (before ++ middle)).refuse fragment, middle.length, some error, after⟩ := by
  induction middle generalizing before with
  | nil =>
    -- Nothing is left before the refused fragment.
    rw [List.append_nil] at hrefuses
    rw [List.nil_append, drain, accept_collect_eq_error_iff.mpr hrefuses]
    simp
  | cons head middle ih =>
    obtain ⟨hadmits, hmiddle⟩ := admitsAll_cons_iff.mp hall
    rw [List.cons_append, drain, accept_collect_eq_ok_iff.mpr ⟨hadmits, rfl⟩]
    dsimp only
    rw [ih hmiddle (by simpa using hrefuses)]
    simp

/-- What the rules refuse they do not admit. -/
theorem Refuses.not_admits {fragment : Fragment} {error : QueryError}
    (h : Refuses backend before fragment error) : ¬ Admits backend before fragment := by
  intro hadmits
  have haccept := accept_collect_eq_ok_iff.mpr ⟨hadmits, rfl⟩
  rw [accept_collect_eq_error_iff.mpr h] at haccept
  exact nomatch haccept

/-- The fragment of a row that is refused stands behind all those at its beginning that were
admitted. -/
theorem Refuses.length_le {first rest after : List Fragment} {fragment : Fragment}
    {error : QueryError} (hrefuses : Refuses backend before fragment error)
    (hall : AdmitsAll backend [] first) (hsplit : first ++ rest = before ++ fragment :: after) :
    first.length ≤ before.length := by
  by_contra hlength
  -- Otherwise it is among them.
  have hprefix : before ++ [fragment] <+: first := by
    refine List.prefix_of_prefix_length_le ⟨after, ?_⟩ ⟨rest, hsplit⟩ ?_
    · simp
    · simp only [List.length_append, List.length_singleton]
      omega
  obtain ⟨more, rfl⟩ := hprefix
  exact hrefuses.not_admits (hall before fragment more (by simp))

/-- There is one first fragment of a row that is refused. -/
theorem Refuses.first_unique {after other rest : List Fragment} {fragment refused : Fragment}
    {error cause : QueryError} (hrefuses : Refuses backend before fragment error)
    (hall : AdmitsAll backend [] before) (hrefused : Refuses backend other refused cause)
    (hother : AdmitsAll backend [] other)
    (hsplit : before ++ fragment :: after = other ++ refused :: rest) :
    before = other ∧ fragment = refused ∧ after = rest ∧ error = cause := by
  have hdrain := @drain_of_refuses backend [] before fragment error hall hrefuses after
  rw [hsplit, @drain_of_refuses backend [] other refused cause hother hrefused rest] at hdrain
  injection hdrain with _ hlength herror _
  obtain ⟨rfl, htail⟩ := List.append_inj hsplit hlength.symm
  obtain ⟨rfl, rfl⟩ := List.cons.inj htail
  exact ⟨rfl, rfl, rfl, (Option.some.inj herror).symm⟩

end ScreenedQuery.Draft
