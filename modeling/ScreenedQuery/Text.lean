/-!
# Texts as lists of characters

What several parts of the library ask of a text.

## Main definitions

* `isQuote`: the two quotes
* `occursIn`: whether a text holds a sequence of characters
* `afterStart?`: the rest of a text behind what it starts with
* `splitParts`, `joinWith`: the parts between separators, and parts put together

## Main results

* `occursIn_append_right`, `occursIn_append_left`: a sequence in a part is in the whole
* `mem_of_occursIn`: a sequence in a text has no other characters than the text
* `afterStart?_append`: what stands behind a start is found
* `joinWith_splitParts`, `splitParts_joinWith`: taking a text apart and putting it together
-/

namespace ScreenedQuery

/-- The single and the double quote. -/
def isQuote (c : Char) : Bool := c == '\'' || c == '"'

/-- Whether `part` stands somewhere in a text. -/
def occursIn (part : List Char) : List Char → Bool
  | [] => part.isEmpty
  | c :: text => part.isPrefixOf (c :: text) || occursIn part text

/-- What stands in the end of a text stands in the text. -/
theorem occursIn_append_right (part before : List Char) {text : List Char}
    (h : occursIn part text) : occursIn part (before ++ text) := by
  induction before with
  | nil => exact h
  | cons c before ih => simp [occursIn, ih]

/-- What stands in the beginning of a text stands in the text. -/
theorem occursIn_append_left (part after : List Char) {text : List Char}
    (h : occursIn part text) : occursIn part (text ++ after) := by
  induction text with
  | nil =>
    have hpart : part = [] := by simpa [occursIn] using h
    subst hpart
    cases after <;> simp [occursIn]
  | cons c text ih =>
    rw [occursIn, Bool.or_eq_true] at h
    rw [List.cons_append, occursIn, Bool.or_eq_true]
    rcases h with h | h
    · refine .inl (List.isPrefixOf_iff_prefix.mpr ?_)
      exact (List.isPrefixOf_iff_prefix.mp h).trans (by simp)
    · exact .inr (ih h)

/-- The characters of what stands in a text stand in the text. -/
theorem mem_of_occursIn {part text : List Char} (h : occursIn part text) :
    ∀ c ∈ part, c ∈ text := by
  induction text with
  | nil =>
    have hpart : part = [] := by simpa [occursIn] using h
    simp [hpart]
  | cons d text ih =>
    rw [occursIn, Bool.or_eq_true] at h
    intro c hc
    rcases h with h | h
    · exact (List.isPrefixOf_iff_prefix.mp h).subset hc
    · exact List.mem_cons_of_mem d (ih h c hc)

/-- The rest of a text behind a start. -/
def afterStart? : List Char → List Char → Option (List Char)
  | [], text => some text
  | _ :: _, [] => none
  | c :: start, d :: text => if c = d then afterStart? start text else none

/-- What stands behind a start is found. -/
@[simp] theorem afterStart?_append (start text : List Char) :
    afterStart? start (start ++ text) = some text := by
  induction start with
  | nil => rfl
  | cons c start ih => simp [afterStart?, ih]

/-- The parts of a text between its separators. -/
def splitParts (separator : Char) : List Char → List (List Char)
  | [] => [[]]
  | c :: text =>
    if c = separator then [] :: splitParts separator text
    else match splitParts separator text with
      | part :: parts => (c :: part) :: parts
      | [] => [[c]]

/-- The parts put together with a separator between them. -/
def joinWith (separator : List Char) : List (List Char) → List Char
  | [] => []
  | [part] => part
  | part :: parts => part ++ separator ++ joinWith separator parts

theorem splitParts_ne_nil (separator : Char) (text : List Char) :
    splitParts separator text ≠ [] := by
  cases text with
  | nil => simp [splitParts]
  | cons c text =>
    rw [splitParts]
    split
    · simp
    · split <;> simp

@[simp] theorem joinWith_singleton (separator part : List Char) :
    joinWith separator [part] = part := rfl

theorem joinWith_cons (separator part : List Char) {parts : List (List Char)} (h : parts ≠ []) :
    joinWith separator (part :: parts) = part ++ separator ++ joinWith separator parts := by
  cases parts with
  | nil => exact absurd rfl h
  | cons other parts => rfl

theorem joinWith_append_singleton (separator : List Char) {parts : List (List Char)}
    (h : parts ≠ []) (part : List Char) :
    joinWith separator (parts ++ [part]) = joinWith separator parts ++ separator ++ part := by
  induction parts with
  | nil => exact absurd rfl h
  | cons first parts ih =>
    by_cases hparts : parts = []
    · simp [hparts, joinWith]
    · rw [List.cons_append, joinWith_cons _ _ (by simp), joinWith_cons _ _ hparts, ih hparts]
      simp

/-- What holds of parts and separator, and of texts put together, holds of the whole. -/
theorem joinWith_induction {P : List Char → Prop} (hnil : P [])
    (happend : ∀ first second, P first → P second → P (first ++ second))
    {separator : List Char} (hseparator : P separator) {parts : List (List Char)}
    (h : ∀ part ∈ parts, P part) : P (joinWith separator parts) := by
  induction parts with
  | nil => exact hnil
  | cons part parts ih =>
    rw [List.forall_mem_cons] at h
    by_cases hparts : parts = []
    · rw [hparts]
      exact h.1
    · rw [joinWith_cons _ _ hparts]
      exact happend _ _ (happend _ _ h.1 hseparator) (ih h.2)

/-- The parts of a text, put together, are the text. -/
theorem joinWith_splitParts (separator : Char) (text : List Char) :
    joinWith [separator] (splitParts separator text) = text := by
  induction text with
  | nil => rfl
  | cons c text ih =>
    rw [splitParts]
    split
    · rename_i hc
      rw [joinWith_cons _ _ (splitParts_ne_nil separator text), ih, hc]
      rfl
    · cases hparts : splitParts separator text with
      | nil => exact absurd hparts (splitParts_ne_nil separator text)
      | cons part parts =>
        rw [hparts] at ih
        rw [← ih]
        cases parts <;> rfl

/-- No part holds the separator. -/
theorem separator_not_mem {separator : Char} {text part : List Char}
    (h : part ∈ splitParts separator text) : separator ∉ part := by
  induction text generalizing part with
  | nil => simp_all [splitParts]
  | cons c text ih =>
    rw [splitParts] at h
    split at h
    · rcases List.mem_cons.mp h with rfl | h
      · exact List.not_mem_nil
      · exact ih h
    · rename_i hc
      cases hparts : splitParts separator text with
      | nil => exact absurd hparts (splitParts_ne_nil separator text)
      | cons first parts =>
        rw [hparts] at h ih
        rcases List.mem_cons.mp h with rfl | h
        · have hfirst : separator ∉ first := ih List.mem_cons_self
          simpa [eq_comm, hfirst] using hc
        · exact ih (List.mem_cons_of_mem _ h)

theorem splitParts_append {separator : Char} {part : List Char} (h : separator ∉ part)
    (text : List Char) :
    splitParts separator (part ++ separator :: text) = part :: splitParts separator text := by
  induction part with
  | nil => simp [splitParts]
  | cons c part ih =>
    have hc : c ≠ separator := fun e => h (e ▸ List.mem_cons_self)
    simp [splitParts, hc, ih fun hmem => h (List.mem_cons_of_mem _ hmem)]

theorem splitParts_of_not_mem {separator : Char} {part : List Char} (h : separator ∉ part) :
    splitParts separator part = [part] := by
  induction part with
  | nil => rfl
  | cons c part ih =>
    have hc : c ≠ separator := fun e => h (e ▸ List.mem_cons_self)
    simp [splitParts, hc, ih fun hmem => h (List.mem_cons_of_mem _ hmem)]

/-- Parts put together are found again, if none of them holds the separator. -/
theorem splitParts_joinWith {separator : Char} {parts : List (List Char)} (hne : parts ≠ [])
    (h : ∀ part ∈ parts, separator ∉ part) :
    splitParts separator (joinWith [separator] parts) = parts := by
  induction parts with
  | nil => exact absurd rfl hne
  | cons part parts ih =>
    rw [List.forall_mem_cons] at h
    by_cases hparts : parts = []
    · rw [hparts, joinWith_singleton, splitParts_of_not_mem h.1]
    · rw [joinWith_cons _ _ hparts, List.append_assoc, List.singleton_append,
        splitParts_append h.1, ih hparts h.2]

end ScreenedQuery
