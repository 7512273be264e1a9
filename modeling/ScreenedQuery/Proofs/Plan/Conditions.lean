import ScreenedQuery.Plan.Draft
import ScreenedQuery.Proofs.Text.Blank
import ScreenedQuery.Proofs.Value.Literal

/-!
# The form of raw filters

A raw filter is a field, the longest operator that stands behind it and a literal on one line that
goes to the end of the text. Such texts are read as they are written, and other texts are refused,
except for some that have nothing but blanks behind their operator.

## Main definitions

* `IsLiteral`: what stands between blanks on one line
* `Comparison.Heads`: the longest operator at the start of a text
* `Predicate.States`: a text that is a field, an operator and a literal
* `Predicate.Dangles`: a text whose operator is followed by blanks only, and which is read
  nevertheless
* `Predicate.IsBare`: a text whose literal is missing, and which is refused

## Main results

* `Predicate.ofText?_of_states`: comparisons are read as they are written
* `Predicate.isSome_ofText?_iff`: what is read is a comparison, or dangles
* `Predicate.States.append`: a comparison takes in what is put behind it on the same line
* `Predicate.raw_filters`: which texts are read, as what, and which are refused
-/

namespace ScreenedQuery

open Screen (isIdentifierStart isIdentifierRest)
open Unicode (isBlank AllBlank Encloses trimStart trim)

/-! ## Fields -/

/-- The form of a field in a raw filter: dots may stand anywhere but at the start. -/
def isRawField : List Char → Bool
  | [] => false
  | c :: rest => isIdentifierStart c && rest.all isFieldRest

variable {text field rest literal : List Char}

theorem fieldPart?_append (hfield : isRawField field = true)
    (hrest : ∀ c ∈ rest.head?, isFieldRest c = false) :
    fieldPart? (field ++ rest) = some (field, rest) := by
  cases field with
  | nil => exact nomatch hfield
  | cons c field =>
    rw [isRawField, Bool.and_eq_true, List.all_eq_true] at hfield
    obtain ⟨htake, hdrop⟩ := span_append hfield.2 hrest
    rw [List.cons_append, fieldPart?, if_pos hfield.1, htake, hdrop]

theorem fieldPart?_eq_some (h : fieldPart? text = some (field, rest)) :
    isRawField field = true ∧ text = field ++ rest := by
  cases text with
  | nil => cases h
  | cons c text =>
    rw [fieldPart?] at h
    split at h
    · rename_i hstart
      obtain ⟨rfl, rfl⟩ := Prod.mk.inj (Option.some.inj h)
      refine ⟨?_, ?_⟩
      · rw [isRawField, hstart, Bool.true_and, List.all_eq_true]
        exact fun c => List.mem_takeWhile_imp
      · rw [List.cons_append, List.takeWhile_append_dropWhile]
    · cases h

/-! ## Literals -/

/-- **A literal**: it starts and ends with what is not blank, and is on one line. -/
structure IsLiteral (literal : List Char) : Prop where
  ne_nil : literal ≠ []
  head : ∀ c ∈ literal.head?, isBlank c = false
  last : ∀ c ∈ literal.getLast?, isBlank c = false
  line : '\n' ∉ literal

theorem isLiteral_iff :
    IsLiteral literal ↔ literal ≠ [] ∧ literal.head?.all (!isBlank ·) = true ∧
      literal.getLast?.all (!isBlank ·) = true ∧ literal.contains '\n' = false := by
  have hall (first : Option Char) :
      first.all (!isBlank ·) = true ↔ ∀ c ∈ first, isBlank c = false := by
    cases first <;> simp
  rw [hall, hall, List.contains_eq_mem, decide_eq_false_iff_not]
  exact ⟨fun ⟨hne, hhead, hlast, hline⟩ => ⟨hne, hhead, hlast, hline⟩,
    fun ⟨hne, hhead, hlast, hline⟩ => ⟨hne, hhead, hlast, hline⟩⟩

instance (literal : List Char) : Decidable (IsLiteral literal) :=
  decidable_of_iff _ isLiteral_iff.symm

theorem IsLiteral.trim_eq (h : IsLiteral literal) : trim literal = literal :=
  Encloses.trim_eq ⟨[], [], nofun, nofun, by simp⟩ h.head h.last

/-- Without its first character a literal is empty, or a literal behind blanks. -/
theorem IsLiteral.tail {c : Char} (h : IsLiteral (c :: rest)) (hne : rest ≠ []) :
    ∃ before inner, AllBlank before ∧ IsLiteral inner ∧ rest = before ++ inner := by
  obtain ⟨before, hbefore, hrest⟩ := Unicode.exists_trimStart rest
  have hlast : ∀ d ∈ rest.getLast?, isBlank d = false := by
    intro d hd
    refine h.last d ?_
    rw [List.getLast?_cons_of_ne_nil hne]
    exact hd
  -- Its last character is not blank, so that cutting off blanks leaves something.
  have hinner : trimStart rest ≠ [] := by
    intro hnil
    rw [hnil, List.append_nil] at hrest
    have hblank : isBlank (rest.getLast hne) = true := by
      refine hbefore _ ?_
      rw [← hrest]
      exact List.getLast_mem hne
    rw [hlast _ (List.getLast?_eq_some_getLast hne)] at hblank
    exact nomatch hblank
  refine ⟨before, trimStart rest, hbefore, ⟨hinner, ?_, ?_, ?_⟩, hrest⟩
  · exact fun d => Unicode.isBlank_head_trimStart
  · intro d hd
    refine hlast d ?_
    rw [hrest, List.getLast?_append_of_ne_nil _ hinner]
    exact hd
  · intro hmem
    refine h.line (List.mem_cons_of_mem _ ?_)
    rw [hrest]
    exact List.mem_append_right _ hmem

theorem literalPart?_of_encloses (htext : Encloses text literal) (hliteral : IsLiteral literal) :
    literalPart? text = some literal := by
  rw [literalPart?, htext.trim_eq hliteral.head hliteral.last]
  obtain ⟨c, rest, rfl⟩ := List.exists_cons_of_ne_nil hliteral.ne_nil
  simp [hliteral.line]

/-- A literal that is found is one, unless nothing but blanks is there. -/
theorem literalPart?_eq_some (h : literalPart? text = some literal) :
    Encloses text literal ∧ IsLiteral literal ∨ AllBlank text ∧ ∃ c ∈ text, c ≠ '\n' := by
  have htrim := Unicode.encloses_trim text
  rw [literalPart?] at h
  split at h
  · rename_i hnil
    right
    obtain ⟨before, after, hbefore, hafter, htext⟩ := hnil ▸ htrim
    obtain ⟨c, hc, -⟩ := Option.map_eq_some_iff.mp h
    have hmem := List.mem_filter.mp (List.mem_of_getLast? hc)
    refine ⟨?_, c, hmem.1, by simpa using hmem.2⟩
    rw [htext]
    exact fun d hd => (List.mem_append.mp hd).elim (hbefore d) (hafter d)
  · rename_i hne
    left
    split at h
    · exact nomatch h
    · rename_i hline
      obtain rfl := Option.some.inj h
      exact ⟨htrim, hne, fun c => Unicode.isBlank_head_trim, fun c => Unicode.isBlank_last_trim,
        by simpa using hline⟩

/-! ## Operators -/

theorem afterStart?_eq_some_iff {start : List Char} :
    afterStart? start text = some rest ↔ text = start ++ rest := by
  constructor
  · intro h
    induction start generalizing text with
    | nil => exact Option.some.inj h
    | cons c start ih =>
      cases text with
      | nil => cases h
      | cons d text =>
        rw [afterStart?] at h
        split at h
        · rename_i hc
          rw [hc, ih h, List.cons_append]
        · cases h
  · rintro rfl
    exact afterStart?_append start rest

namespace Comparison

/-- The operators are different, and no operator is tried before a longer one. -/
theorem pairwise_tokens : tokens.Pairwise fun first second =>
    second.1.length ≤ first.1.length ∧ first.1 ≠ second.1 := by
  decide

theorem length_of_mem_tokens : ∀ other ∈ tokens, 1 ≤ other.1.length ∧ other.1.length ≤ 2 := by
  decide

/-- **The operator at the start of a text**, the longest that stands there, and the rest. -/
structure Heads (text token : List Char) (comparison : Comparison) (rest : List Char) : Prop where
  spelling : (token, comparison) ∈ tokens
  text_eq : text = token ++ rest
  longest : ∀ other ∈ tokens, other.1 <+: text → other.1.length ≤ token.length

variable {token : List Char} {comparison : Comparison}

theorem length_le_of_split {before after : List (List Char × Comparison)}
    {entry other : List Char × Comparison} (htokens : tokens = before ++ entry :: after)
    (hother : other ∈ entry :: after) : other.1.length ≤ entry.1.length := by
  rcases List.mem_cons.mp hother with rfl | hother
  · exact le_refl _
  · have hpairwise := (List.pairwise_append.mp (htokens ▸ pairwise_tokens)).2.1
    exact ((List.pairwise_cons.mp hpairwise).1 other hother).1

/-- The longest operator at the start of a text is tried first. -/
theorem Heads.afterStart?_eq_none (h : Heads text token comparison rest)
    {before after : List (List Char × Comparison)}
    (htokens : tokens = before ++ (token, comparison) :: after)
    {other : List Char × Comparison} (hother : other ∈ before) :
    afterStart? other.1 text = none := by
  have hpairwise := htokens ▸ pairwise_tokens
  obtain ⟨hlength, hne⟩ := (List.pairwise_append.mp hpairwise).2.2 other hother _
    List.mem_cons_self
  rw [Option.eq_none_iff_forall_ne_some]
  intro rest' hstart
  have hstarts : other.1 <+: text := ⟨rest', (afterStart?_eq_some_iff.mp hstart).symm⟩
  have htoken : token <+: text := ⟨rest, h.text_eq.symm⟩
  have hmem : other ∈ tokens := htokens ▸ List.mem_append_left _ hother
  -- What is tried before is as long at least, and would then be the operator itself.
  have heq : other.1.length = token.length := le_antisymm (h.longest other hmem hstarts) hlength
  exact hne ((List.prefix_of_prefix_length_le hstarts htoken heq.le).eq_of_length heq)

/-- There is one longest operator. -/
theorem Heads.unique {token' rest' : List Char} {comparison' : Comparison}
    (h : Heads text token comparison rest) (h' : Heads text token' comparison' rest') :
    token = token' ∧ rest = rest' := by
  have hstarts : token <+: text := ⟨rest, h.text_eq.symm⟩
  have hstarts' : token' <+: text := ⟨rest', h'.text_eq.symm⟩
  have heq : token.length = token'.length :=
    le_antisymm (h'.longest _ h.spelling hstarts) (h.longest _ h'.spelling hstarts')
  obtain rfl := (List.prefix_of_prefix_length_le hstarts hstarts' heq.le).eq_of_length heq
  exact ⟨rfl, List.append_cancel_left (h.text_eq.symm.trans h'.text_eq)⟩

/-- An operator with something behind it stays the longest when more is put behind that. -/
theorem Heads.append (h : Heads text token comparison rest) (hne : rest ≠ []) (more : List Char) :
    Heads (text ++ more) token comparison (rest ++ more) := by
  refine ⟨h.spelling, by rw [h.text_eq, List.append_assoc], fun other hother hstarts => ?_⟩
  have htoken : 1 ≤ token.length := (length_of_mem_tokens _ h.spelling).1
  have hrest : 0 < rest.length := List.length_pos_iff.mpr hne
  have hlength : other.1.length ≤ text.length := by
    rw [h.text_eq, List.length_append]
    exact le_trans (length_of_mem_tokens other hother).2 (by omega)
  exact h.longest other hother
    (List.prefix_of_prefix_length_le hstarts (List.prefix_append text more) hlength)

/-- **The longest operator is read**, if a literal stands behind it. -/
theorem Heads.comparisonPart?_eq (h : Heads text token comparison rest)
    (hliteral : literalPart? rest = some literal) :
    comparisonPart? text = some (comparison, literal) := by
  obtain ⟨before, after, htokens⟩ := List.append_of_mem h.spelling
  rw [comparisonPart?, List.findSome?_eq_some_iff]
  refine ⟨before, (token, comparison), after, htokens, ?_, fun other hother => ?_⟩
  · simp [afterStart?_eq_some_iff.mpr h.text_eq, hliteral]
  · simp [h.afterStart?_eq_none htokens hother]

/-- A text whose operator is followed by blanks only, and which is read nevertheless: one of the
blanks does not end a line, or a shorter operator leaves a part of the longest one behind. -/
def Dangles (text : List Char) : Prop :=
  ∃ token comparison rest, Heads text token comparison rest ∧ AllBlank rest ∧
    ((∃ c ∈ rest, c ≠ '\n') ∨ ∃ other ∈ tokens, other.1 <+: token ∧ other.1 ≠ token)

/-- What holds of the characters of each operator. -/
theorem of_mem_token {p : Char → Bool} (hp : (tokens.all fun entry => entry.1.all p) = true)
    {entry : List Char × Comparison} (hentry : entry ∈ tokens) {c : Char} (hc : c ∈ entry.1) :
    p c = true :=
  List.all_eq_true.mp (List.all_eq_true.mp hp entry hentry) c hc

theorem isBlank_of_mem_token {entry : List Char × Comparison} (hentry : entry ∈ tokens) {c : Char}
    (hc : c ∈ entry.1) : isBlank c = false :=
  Bool.not_inj (of_mem_token (p := fun c => !isBlank c) (by decide) hentry hc)

/-- An operator that is tried after a longer one leaves one character of it. -/
theorem exists_of_longer {other : List Char × Comparison} (hother : other ∈ tokens)
    (htoken : (token, comparison) ∈ tokens) (hstarts : token <+: other.1)
    (hlt : token.length < other.1.length) : ∃ c, isBlank c = false ∧ other.1 = token ++ [c] := by
  obtain ⟨rest, hrest⟩ := hstarts
  have hlength := congrArg List.length hrest
  rw [List.length_append] at hlength
  have hfirst : 1 ≤ token.length := (length_of_mem_tokens _ htoken).1
  have hsecond := (length_of_mem_tokens _ hother).2
  obtain ⟨c, rfl⟩ := List.length_eq_one_iff.mp (show rest.length = 1 by omega)
  refine ⟨c, isBlank_of_mem_token hother ?_, hrest.symm⟩
  rw [← hrest]
  exact List.mem_append_right _ List.mem_cons_self

/-- If a literal can only be found together with the character in front, nothing but blanks stands
behind that character. -/
theorem allBlank_of_literalPart? {c : Char} (hc : isBlank c = false)
    (h : literalPart? (c :: rest) = some literal) (hrest : literalPart? rest = none) :
    AllBlank rest := by
  rcases literalPart?_eq_some h with ⟨⟨gap, last, hgap, hlast, heq⟩, hform⟩ | ⟨hblank, -⟩
  · cases gap with
    | cons d gap =>
      obtain ⟨rfl, -⟩ := List.cons.inj heq
      rw [hgap c List.mem_cons_self] at hc
      exact nomatch hc
    | nil =>
      cases literal with
      | nil => exact absurd rfl hform.ne_nil
      | cons d inner =>
        obtain ⟨-, rfl⟩ := List.cons.inj heq
        by_cases hinner : inner = []
        · rw [hinner]
          exact hlast
        · -- What is left of the literal would have been found.
          obtain ⟨before, tail, hbefore, htail, rfl⟩ := hform.tail hinner
          have hfound := literalPart?_of_encloses
            ⟨before, last, hbefore, hlast, List.append_assoc before tail last⟩ htail
          exact nomatch hrest.symm.trans hfound
  · rw [hblank c List.mem_cons_self] at hc
    exact nomatch hc

/-- A literal that is found behind a shorter operator only is a part of the longest one. -/
theorem dangles_of_longer {other : List Char × Comparison} {rest' : List Char}
    (htoken : (token, comparison) ∈ tokens) (htext : text = token ++ rest)
    (hliteral : literalPart? rest = some literal) (hother : other ∈ tokens)
    (htext' : text = other.1 ++ rest') (hlt : token.length < other.1.length)
    (hfail : literalPart? rest' = none) : Dangles text := by
  have hstarts : token <+: other.1 :=
    List.prefix_of_prefix_length_le ⟨rest, htext.symm⟩ ⟨rest', htext'.symm⟩ hlt.le
  obtain ⟨c, hc, hcut⟩ := exists_of_longer hother htoken hstarts hlt
  have hrest : rest = c :: rest' := by
    rw [htext', hcut, List.append_assoc] at htext
    exact (List.append_cancel_left htext).symm
  have hheads : Heads text other.1 other.2 rest' := by
    refine ⟨hother, htext', fun third hthird _ => ?_⟩
    have hfirst : 1 ≤ token.length := (length_of_mem_tokens _ htoken).1
    exact le_trans (length_of_mem_tokens third hthird).2 (by omega)
  refine ⟨other.1, other.2, rest', hheads, ?_, .inr ⟨(token, comparison), htoken, hstarts, ?_⟩⟩
  · exact allBlank_of_literalPart? hc (hrest ▸ hliteral) hfail
  · exact fun heq => hlt.ne (congrArg List.length heq)

/-- **What is read behind a field** is a literal behind the longest operator, or it dangles. -/
theorem comparisonPart?_eq_some (h : comparisonPart? text = some (comparison, literal)) :
    (∃ token rest, Heads text token comparison rest ∧ Encloses rest literal ∧
      IsLiteral literal) ∨ Dangles text := by
  obtain ⟨before, ⟨token, found⟩, after, htokens, hfound, hbefore⟩ :=
    List.findSome?_eq_some_iff.mp h
  obtain ⟨_, hbind, heq⟩ := Option.map_eq_some_iff.mp hfound
  obtain ⟨rfl, rfl⟩ := Prod.mk.inj heq
  obtain ⟨rest, hstart, hliteral⟩ := Option.bind_eq_some_iff.mp hbind
  have htext := afterStart?_eq_some_iff.mp hstart
  have htoken : (token, found) ∈ tokens := htokens ▸ List.mem_append_right _ List.mem_cons_self
  by_cases hlongest : ∀ other ∈ tokens, other.1 <+: text → other.1.length ≤ token.length
  · have hheads : Heads text token found rest := ⟨htoken, htext, hlongest⟩
    rcases literalPart?_eq_some hliteral with ⟨hencloses, hform⟩ | ⟨hblank, hline⟩
    · exact .inl ⟨token, rest, hheads, hencloses, hform⟩
    · exact .inr ⟨token, found, rest, hheads, hblank, .inl hline⟩
  · -- A longer operator was tried before, and no literal was found behind it.
    right
    simp only [not_forall, not_le] at hlongest
    obtain ⟨other, hother, ⟨rest', hrest'⟩, hlt⟩ := hlongest
    have hmem : other ∈ before := by
      rcases List.mem_append.mp (htokens ▸ hother) with hmem | hmem
      · exact hmem
      · exact absurd (length_le_of_split htokens hmem) (not_le.mpr hlt)
    have hfail : literalPart? rest' = none := by
      simpa [afterStart?_eq_some_iff.mpr hrest'.symm] using hbefore other hmem
    exact dangles_of_longer htoken htext hliteral hother hrest'.symm hlt hfail

/-- What dangles is read. -/
theorem Dangles.isSome_comparisonPart? (h : Dangles text) : (comparisonPart? text).isSome := by
  obtain ⟨token, comparison, rest, hheads, hblank, hread⟩ := h
  suffices hfound : ∃ entry ∈ tokens, ∃ rest literal, text = entry.1 ++ rest ∧
      literalPart? rest = some literal by
    obtain ⟨entry, hentry, rest, literal, htext, hliteral⟩ := hfound
    rw [comparisonPart?, List.findSome?_isSome_iff]
    refine ⟨entry, hentry, ?_⟩
    simp [afterStart?_eq_some_iff.mpr htext, hliteral]
  rcases hread with ⟨c, hc, hline⟩ | ⟨other, hother, ⟨kept, hkept⟩, hne⟩
  · -- The last blank that does not end a line is the literal.
    have htrim : trim rest = [] :=
      Encloses.trim_eq ⟨rest, [], hblank, nofun, by simp⟩ nofun nofun
    have hne : rest.filter (· != '\n') ≠ [] :=
      List.ne_nil_of_mem (List.mem_filter.mpr ⟨hc, by simpa using hline⟩)
    refine ⟨(token, comparison), hheads.spelling, rest,
      [(rest.filter (· != '\n')).getLast hne], hheads.text_eq, ?_⟩
    rw [literalPart?, htrim]
    exact congrArg (Option.map _) (List.getLast?_eq_some_getLast hne)
  · -- What is left of the longer operator is the literal.
    have hsolid : ∀ c ∈ kept, isBlank c = false := fun c hc =>
      isBlank_of_mem_token hheads.spelling (hkept ▸ List.mem_append_right _ hc)
    have hform : IsLiteral kept := by
      refine ⟨?_, fun c hc => hsolid c (List.mem_of_head? hc),
        fun c hc => hsolid c (List.mem_of_getLast? hc), fun hc => nomatch hsolid _ hc⟩
      rintro rfl
      exact hne (by simpa using hkept)
    refine ⟨other, hother, kept ++ rest, kept, ?_, ?_⟩
    · rw [hheads.text_eq, ← hkept, List.append_assoc]
    · exact literalPart?_of_encloses ⟨[], rest, nofun, hblank, rfl⟩ hform

end Comparison

namespace Predicate

/-! ## Raw filters -/

variable {token : List Char} {comparison : Comparison}

/-- **A text that starts with a field**, blanks around it left aside. -/
inductive Opens : List Char → List Char → List Char → Prop
  | mk {before field between rest : List Char} (hbefore : AllBlank before)
      (hfield : isRawField field = true) (hbetween : AllBlank between) :
      Opens (before ++ (field ++ (between ++ rest))) field rest

/-- **A text states a comparison**: it is a field, the longest operator that stands behind it, and a
literal, with blanks around each of them. -/
def States (text field : List Char) (comparison : Comparison) (literal : List Char) : Prop :=
  ∃ token behind rest, Opens text field behind ∧
    Comparison.Heads behind token comparison rest ∧ Encloses rest literal ∧ IsLiteral literal

/-- A comparison is put together from its parts and the blanks between them. -/
theorem States.of_parts (before field between token after literal last : List Char)
    (hbefore : AllBlank before) (hfield : isRawField field = true) (hbetween : AllBlank between)
    (hheads : Comparison.Heads (token ++ (after ++ (literal ++ last))) token comparison
      (after ++ (literal ++ last)))
    (hafter : AllBlank after) (hliteral : IsLiteral literal) (hlast : AllBlank last) :
    States (before ++ (field ++ (between ++ (token ++ (after ++ (literal ++ last)))))) field
      comparison literal :=
  ⟨token, _, _, .mk hbefore hfield hbetween, hheads, ⟨after, last, hafter, hlast, rfl⟩, hliteral⟩

/-- A text that dangles behind its field. -/
def Dangles (text : List Char) : Prop :=
  ∃ field behind, Opens text field behind ∧ Comparison.Dangles behind

/-- The characters of fields are not blank. -/
theorem isFieldRest_of_isBlank {c : Char} (h : isBlank c = true) : isFieldRest c = false :=
  Unicode.eq_false_of_isBlank (by decide) h

theorem isBlank_of_isIdentifierStart {c : Char} (h : isIdentifierStart c = true) :
    isBlank c = false := by
  rw [← Bool.not_eq_true]
  intro hblank
  have hrest := isFieldRest_of_isBlank hblank
  simp only [isFieldRest, isIdentifierRest, Char.isAlphanum, Bool.or_eq_false_iff] at hrest
  simp [isIdentifierStart, hrest] at h

theorem isFieldRest_of_mem_token {entry : List Char × Comparison}
    (hentry : entry ∈ Comparison.tokens) {c : Char} (hc : c ∈ entry.1) : isFieldRest c = false :=
  Bool.not_inj (Comparison.of_mem_token (p := fun c => !isFieldRest c) (by decide) hentry hc)

theorem isBlank_head_field {c : Char} (hfield : isRawField field = true)
    (hc : c ∈ (field ++ rest).head?) : isBlank c = false := by
  cases field with
  | nil => exact nomatch hfield
  | cons d field =>
    obtain rfl := Option.some.inj hc
    rw [isRawField, Bool.and_eq_true] at hfield
    exact isBlank_of_isIdentifierStart hfield.1

/-- A text with an operator at its start starts with a character of it. -/
theorem mem_of_mem_head {c : Char} (h : Comparison.Heads text token comparison rest)
    (hc : c ∈ text.head?) : c ∈ token := by
  have hlength : 1 ≤ token.length := (Comparison.length_of_mem_tokens _ h.spelling).1
  rw [h.text_eq, List.head?_append_of_ne_nil _ (List.ne_nil_of_length_pos hlength)] at hc
  exact List.mem_of_head? hc

/-- The field of a text is read, and what is behind it. -/
theorem Opens.fieldPart?_eq {behind : List Char} (h : Opens text field behind)
    (hheads : Comparison.Heads behind token comparison rest) :
    ∃ between, fieldPart? (trimStart text) = some (field, between ++ behind) ∧
      trimStart (between ++ behind) = behind := by
  have hhead : ∀ c ∈ behind.head?, c ∈ token := fun c => mem_of_mem_head hheads
  obtain @⟨before, field, between, _, hbefore, hfield, hbetween⟩ := h
  -- The field ends where a blank or the operator stands.
  have hnext : ∀ c ∈ (between ++ behind).head?, isFieldRest c = false := by
    intro c hc
    cases between with
    | nil => exact isFieldRest_of_mem_token hheads.spelling (hhead c hc)
    | cons d between =>
      obtain rfl := Option.some.inj hc
      exact isFieldRest_of_isBlank (hbetween _ List.mem_cons_self)
  have hoperator : ∀ c ∈ behind.head?, isBlank c = false := fun c hc =>
    Comparison.isBlank_of_mem_token hheads.spelling (hhead c hc)
  refine ⟨between, ?_, Unicode.trimStart_append hbetween hoperator⟩
  rw [Unicode.trimStart_append hbefore fun c => isBlank_head_field hfield]
  exact fieldPart?_append hfield hnext

/-- There is one field in front of an operator. -/
theorem Opens.unique {field' behind behind' token' rest' : List Char} {comparison' : Comparison}
    (h : Opens text field behind) (hheads : Comparison.Heads behind token comparison rest)
    (h' : Opens text field' behind') (hheads' : Comparison.Heads behind' token' comparison' rest') :
    field = field' ∧ behind = behind' := by
  obtain ⟨between, hpart, htrim⟩ := h.fieldPart?_eq hheads
  obtain ⟨between', hpart', htrim'⟩ := h'.fieldPart?_eq hheads'
  obtain ⟨hfield, hrest⟩ := Prod.mk.inj (Option.some.inj (hpart.symm.trans hpart'))
  exact ⟨hfield, htrim.symm.trans (hrest ▸ htrim')⟩

/-- **Comparisons are read as they are written.** -/
theorem ofText?_of_states {text : String} (h : States text.toList field comparison literal) :
    ofText? text = some (.compare (String.ofList field) comparison (.ofLiteral literal)) := by
  obtain ⟨token, behind, rest, hopens, hheads, hencloses, hliteral⟩ := h
  obtain ⟨between, hpart, htrim⟩ := hopens.fieldPart?_eq hheads
  have hcomparison := hheads.comparisonPart?_eq (literalPart?_of_encloses hencloses hliteral)
  unfold ofText?
  simp only [Option.bind_eq_bind, hpart, Option.bind_some, htrim, hcomparison]
  rfl

/-- **What is read is a comparison, or dangles.** -/
theorem states_or_dangles {text : String} {predicate : Predicate}
    (h : ofText? text = some predicate) :
    (∃ field comparison literal, States text.toList field comparison literal ∧
      predicate = .compare (String.ofList field) comparison (.ofLiteral literal)) ∨
    Dangles text.toList := by
  unfold ofText? at h
  obtain ⟨⟨field, rest⟩, hfield, h⟩ := Option.bind_eq_some_iff.mp h
  obtain ⟨⟨comparison, literal⟩, hcomparison, h⟩ := Option.bind_eq_some_iff.mp h
  obtain ⟨before, hbefore, htext⟩ := Unicode.exists_trimStart text.toList
  obtain ⟨between, hbetween, hrest⟩ := Unicode.exists_trimStart rest
  obtain ⟨hform, hstart⟩ := fieldPart?_eq_some hfield
  have hopens : Opens text.toList field (trimStart rest) := by
    rw [htext, hstart]
    nth_rewrite 1 [hrest]
    exact .mk hbefore hform hbetween
  rcases Comparison.comparisonPart?_eq_some hcomparison with
    ⟨token, behind, hheads, hencloses, hliteral⟩ | hdangles
  · exact .inl ⟨field, comparison, literal,
      ⟨token, trimStart rest, behind, hopens, hheads, hencloses, hliteral⟩,
      (Option.some.inj h).symm⟩
  · exact .inr ⟨field, trimStart rest, hopens, hdangles⟩

/-- **Which texts are read**, and as what. -/
theorem ofText?_iff_states {text : String} (h : ¬Dangles text.toList) {predicate : Predicate} :
    ofText? text = some predicate ↔
      ∃ field comparison literal, States text.toList field comparison literal ∧
        predicate = .compare (String.ofList field) comparison (.ofLiteral literal) := by
  constructor
  · intro hread
    exact (states_or_dangles hread).resolve_right h
  · rintro ⟨field, comparison, literal, hstates, rfl⟩
    exact ofText?_of_states hstates

/-- **What states no comparison and does not dangle is refused.** -/
theorem ofText?_eq_none {text : String} (hdangles : ¬Dangles text.toList)
    (hstates : ∀ field comparison literal, ¬States text.toList field comparison literal) :
    ofText? text = none := by
  rw [Option.eq_none_iff_forall_ne_some]
  intro predicate hread
  obtain ⟨field, comparison, literal, h, -⟩ := (ofText?_iff_states hdangles).mp hread
  exact hstates field comparison literal h

/-- **What is accepted** states a comparison or dangles. -/
theorem isSome_ofText?_iff {text : String} :
    (ofText? text).isSome ↔
      (∃ field comparison literal, States text.toList field comparison literal) ∨
        Dangles text.toList := by
  constructor
  · intro h
    obtain ⟨predicate, hread⟩ := Option.isSome_iff_exists.mp h
    refine (states_or_dangles hread).imp_left ?_
    rintro ⟨field, comparison, literal, hstates, -⟩
    exact ⟨field, comparison, literal, hstates⟩
  · rintro (⟨field, comparison, literal, hstates⟩ | ⟨field, behind, hopens, hdangles⟩)
    · rw [ofText?_of_states hstates]
      rfl
    · obtain ⟨entry, hread⟩ := Option.isSome_iff_exists.mp hdangles.isSome_comparisonPart?
      obtain ⟨token, comparison, rest, hheads, -⟩ := hdangles
      obtain ⟨between, hpart, htrim⟩ := hopens.fieldPart?_eq hheads
      unfold ofText?
      simp only [Option.bind_eq_bind, hpart, Option.bind_some, htrim, hread]
      rfl

/-! ## Texts without a literal -/

/-- **A text whose literal is missing**: nothing but line feeds stands behind an operator that does
not start with a shorter one. -/
def IsBare (text : List Char) : Prop :=
  ∃ field token comparison behind rest, Opens text field behind ∧
    Comparison.Heads behind token comparison rest ∧ (∀ c ∈ rest, c = '\n') ∧
    ∀ other ∈ Comparison.tokens, other.1 <+: token → other.1 = token

theorem not_encloses_of_allBlank (hrest : AllBlank rest) (hliteral : IsLiteral literal) :
    ¬Encloses rest literal := by
  rintro ⟨before, after, -, -, rfl⟩
  have hhead := hliteral.head _ (List.head?_eq_some_head hliteral.ne_nil)
  have hmem := List.mem_append_left after (List.head_mem hliteral.ne_nil)
  rw [hrest _ (List.mem_append_right before hmem)] at hhead
  exact nomatch hhead

/-- What states a comparison does not dangle. -/
theorem States.not_dangles (h : States text field comparison literal) : ¬Dangles text := by
  obtain ⟨token, behind, rest, hopens, hheads, hencloses, hliteral⟩ := h
  rintro ⟨_, _, hopens', _, _, _, hheads', hblank, -⟩
  obtain ⟨-, rfl⟩ := hopens.unique hheads hopens' hheads'
  obtain ⟨-, rfl⟩ := hheads.unique hheads'
  exact not_encloses_of_allBlank hblank hliteral hencloses

theorem IsBare.not_dangles (h : IsBare text) : ¬Dangles text := by
  obtain ⟨field, token, comparison, behind, rest, hopens, hheads, hline, hshort⟩ := h
  rintro ⟨_, _, hopens', _, _, _, hheads', -, hread⟩
  obtain ⟨-, rfl⟩ := hopens.unique hheads hopens' hheads'
  obtain ⟨rfl, rfl⟩ := hheads.unique hheads'
  rcases hread with ⟨c, hc, hne⟩ | ⟨other, hother, hstarts, hne⟩
  · exact hne (hline c hc)
  · exact hne (hshort other hother hstarts)

theorem IsBare.not_states (h : IsBare text) : ¬States text field comparison literal := by
  obtain ⟨_, _, _, behind, rest, hopens, hheads, hline, -⟩ := h
  rintro ⟨_, _, _, hopens', hheads', hencloses, hliteral⟩
  obtain ⟨-, rfl⟩ := hopens.unique hheads hopens' hheads'
  obtain ⟨-, rfl⟩ := hheads.unique hheads'
  have hblank : AllBlank rest := fun c hc => hline c hc ▸ by decide
  exact not_encloses_of_allBlank hblank hliteral hencloses

/-! ## Operators in literals -/

/-- **A literal in which an operator stands is a text.** -/
theorem ofLiteral_of_operator (hliteral : IsLiteral literal) {other : List Char × Comparison}
    (hother : other ∈ Comparison.tokens) (hwithin : other.1 <:+: literal) :
    Value.ofLiteral literal = .string (String.ofList ((quoted? literal).getD literal)) := by
  obtain ⟨c, hc⟩ := List.exists_mem_of_length_pos (Comparison.length_of_mem_tokens other hother).1
  have hchar := Comparison.of_mem_token (p := fun c => !c.isAlpha && !Number.isNumeral c)
    (by decide) hother hc
  rw [Bool.and_eq_true, Bool.not_eq_true', Bool.not_eq_true'] at hchar
  exact Value.ofLiteral_eq_string hliteral.trim_eq (hwithin.subset hc) hchar.1 hchar.2

/-- A comparison has an operator in it, and its literal at the end. -/
theorem States.exists_core (h : States text field comparison literal) :
    ∃ core last, AllBlank last ∧ text = core ++ last ∧
      (∀ c ∈ core.getLast?, isBlank c = false) ∧
      ∃ other ∈ Comparison.tokens, other.1 <:+: core := by
  obtain ⟨token, behind, rest, hopens, hheads, ⟨gap, last, -, hlast, rfl⟩, hliteral⟩ := h
  obtain @⟨before, field, between, _, -, -, -⟩ := hopens
  obtain rfl := hheads.text_eq
  refine ⟨(before ++ field ++ between ++ token ++ gap) ++ literal, last, hlast, by simp, ?_,
    (token, comparison), hheads.spelling, ⟨before ++ field ++ between, gap ++ literal, by simp⟩⟩
  rw [List.getLast?_append_of_ne_nil _ hliteral.ne_nil]
  exact hliteral.last

/-- **A comparison goes on with what is put behind it on the same line.** -/
theorem States.append (h : States text field comparison literal) {core last : List Char}
    (hlast : AllBlank last) (hne : core ≠ []) (hcore : ∀ c ∈ core.getLast?, isBlank c = false)
    (hline : '\n' ∉ text ++ core) :
    ∃ gap, States (text ++ (core ++ last)) field comparison (literal ++ (gap ++ core)) := by
  obtain ⟨token, behind, rest, hopens, hheads, ⟨start, gap, hstart, -, rfl⟩, hliteral⟩ := h
  obtain @⟨before, field, between, _, hbefore, hfield, hbetween⟩ := hopens
  have hopens' : Opens (before ++ (field ++ (between ++ behind)) ++ (core ++ last)) field
      (behind ++ (core ++ last)) := by
    simpa using @Opens.mk before field between (behind ++ (core ++ last)) hbefore hfield hbetween
  have hrest : start ++ (literal ++ gap) ≠ [] := by simp [hliteral.ne_nil]
  refine ⟨gap, token, _, _, hopens', hheads.append hrest (core ++ last),
    ⟨start, last, hstart, hlast, by simp⟩, ?_, ?_, ?_, ?_⟩
  · simp [hne]
  · rw [List.head?_append_of_ne_nil _ hliteral.ne_nil]
    exact hliteral.head
  · rw [List.getLast?_append_of_ne_nil _ (by simp [hne]), List.getLast?_append_of_ne_nil _ hne]
    exact hcore
  · rw [hheads.text_eq] at hline
    simp only [List.mem_append, not_or] at hline ⊢
    tauto

/-- **Two comparisons on one line are read as one**: the field of the first is compared with a text
in which the second one stands. -/
theorem ofText?_joined {first joiner second : String} {field' literal' : List Char}
    {comparison' : Comparison} (hfirst : States first.toList field comparison literal)
    (hsecond : States second.toList field' comparison' literal')
    (hline : '\n' ∉ (first ++ joiner ++ second).toList) :
    ∃ rest, ofText? (first ++ joiner ++ second) =
      some (.compare (String.ofList field) comparison
        (.string (String.ofList ((quoted? (literal ++ rest)).getD (literal ++ rest))))) := by
  obtain ⟨core, last, hlast, hcore, hend, other, hother, hwithin⟩ := hsecond.exists_core
  have hne : core ≠ [] := by
    rintro rfl
    have hlength : 1 ≤ other.1.length := (Comparison.length_of_mem_tokens other hother).1
    rw [List.infix_nil.mp hwithin] at hlength
    exact nomatch hlength
  have htext : (first ++ joiner ++ second).toList =
      first.toList ++ ((joiner.toList ++ core) ++ last) := by
    simp [hcore]
  rw [htext] at hline
  have hend' : ∀ c ∈ (joiner.toList ++ core).getLast?, isBlank c = false := by
    rwa [List.getLast?_append_of_ne_nil _ hne]
  have hline' : '\n' ∉ first.toList ++ (joiner.toList ++ core) := by
    rw [← List.append_assoc] at hline
    exact fun hmem => hline (List.mem_append_left last hmem)
  -- What is put behind the first literal goes to the end of the second one.
  obtain ⟨gap, hstates⟩ := hfirst.append hlast (by simp [hne]) hend' hline'
  obtain ⟨-, -, -, -, -, -, hform⟩ := id hstates
  have hlies : other.1 <:+: literal ++ (gap ++ (joiner.toList ++ core)) :=
    hwithin.trans ⟨literal ++ gap ++ joiner.toList, [], by simp⟩
  refine ⟨gap ++ (joiner.toList ++ core), ?_⟩
  rw [ofText?_of_states (htext ▸ hstates), ofLiteral_of_operator hform hother hlies]

/-- **Which raw filters are taken.** Texts that dangle are left aside: nothing but blanks stands
behind their operator, and they are read all the same.

* A text is read exactly if it is, between blanks, a field, the longest operator that stands behind
  it, and a literal: what is not empty, starts and ends with no blank, and has no line feed. It is
  read as what is written.
* Every other text is refused at compile, among them the texts whose literal is missing.
* A literal in which an operator stands is one text, without its quotes if it is between two.
* Two comparisons that are joined by anything on one line are therefore no error: the field of the
  first is compared with one text, which the second is a part of. -/
theorem raw_filters :
    (∀ (text : String) (predicate : Predicate), ¬Dangles text.toList →
      (ofText? text = some predicate ↔
        ∃ field comparison literal, States text.toList field comparison literal ∧
          predicate = .compare (String.ofList field) comparison (.ofLiteral literal))) ∧
    (∀ (plan : Plan) (link : Link) (text : String), ¬Dangles text.toList →
      (∀ field comparison literal, ¬States text.toList field comparison literal) →
        plan.extend (.raw link text) =
          .error (.compile ("cannot parse filter '" ++ text ++ "'"))) ∧
    (∀ text : List Char, IsBare text → ¬Dangles text ∧
      ∀ field comparison literal, ¬States text field comparison literal) ∧
    (∀ (text field literal : List Char) (comparison : Comparison) other,
      States text field comparison literal → other ∈ Comparison.tokens → other.1 <:+: literal →
        Value.ofLiteral literal = .string (String.ofList ((quoted? literal).getD literal))) ∧
    ∀ (first joiner second : String) (field literal field' literal' : List Char)
      (comparison comparison' : Comparison), States first.toList field comparison literal →
      States second.toList field' comparison' literal' →
      '\n' ∉ (first ++ joiner ++ second).toList →
        ∃ rest, ofText? (first ++ joiner ++ second) =
          some (.compare (String.ofList field) comparison
            (.string (String.ofList ((quoted? (literal ++ rest)).getD (literal ++ rest))))) := by
  refine ⟨fun text predicate h => ofText?_iff_states h, ?_, ?_, ?_, ?_⟩
  · intro plan link text hdangles hstates
    rw [Plan.extend, ofText?_eq_none hdangles hstates]
  · intro text hbare
    exact ⟨hbare.not_dangles, fun _ _ _ => hbare.not_states⟩
  · intro text field literal comparison other hstates hother hwithin
    obtain ⟨-, -, -, -, -, -, hform⟩ := hstates
    exact ofLiteral_of_operator hform hother hwithin
  · intro first joiner second field literal field' literal' comparison comparison' hfirst hsecond
    exact ofText?_joined hfirst hsecond

/-- A comparison, one without a literal, a literal with operators in it, and two comparisons. -/
theorem raw_filters_age :
    ofText? "age >= 21" = some (.compare "age" .ge (.int 21)) ∧
      (Plan.ofCollection "users").extend (.raw .start "age =") =
        .error (.compile "cannot parse filter 'age ='") ∧
      Value.ofLiteral "<b>".toList = .string "<b>" ∧
      ∃ rest, ofText? ("age >= 21" ++ " OR " ++ "name = <b>") =
        some (.compare "age" .ge (.string (String.ofList
          ((quoted? ("21".toList ++ rest)).getD ("21".toList ++ rest))))) := by
  have hage : States "age >= 21".toList "age".toList .ge "21".toList :=
    .of_parts [] "age".toList [' '] ['>', '='] [' '] "21".toList [] (by decide) (by decide)
      (by decide) ⟨by decide, rfl, by decide⟩ (by decide) (by decide) (by decide)
  have hname : States "name = <b>".toList "name".toList .eq "<b>".toList :=
    .of_parts [] "name".toList [' '] ['='] [' '] "<b>".toList [] (by decide) (by decide)
      (by decide) ⟨by decide, rfl, by decide⟩ (by decide) (by decide) (by decide)
  have hbare : IsBare "age =".toList :=
    ⟨"age".toList, ['='], .eq, ['='], [],
      @Opens.mk [] "age".toList [' '] ['='] (by decide) (by decide) (by decide),
      ⟨by decide, rfl, by decide⟩, nofun, by decide⟩
  obtain ⟨hread, hrefused, hmissing, htext, hjoined⟩ := raw_filters
  obtain ⟨hdangles, hstates⟩ := hmissing _ hbare
  refine ⟨(hread "age >= 21" _ hage.not_dangles).mpr ⟨_, _, _, hage, by decide⟩,
    hrefused _ .start "age =" hdangles hstates, ?_, ?_⟩
  · exact htext _ _ _ _ (['<'], .lt) hname (by decide) ⟨[], "b>".toList, rfl⟩
  · exact hjoined "age >= 21" " OR " "name = <b>" _ _ _ _ _ _ hage hname (by decide)

/-- **Texts that are not one comparison may be taken for one**: two comparisons joined by a word, an
operator without a literal, and an operator with nothing but a blank behind it. -/
theorem raw_filters_misread :
    ofText? "age > 1 OR age < 0" = some (.compare "age" .gt (.string "1 OR age < 0")) ∧
      (['<'] <:+: "1 OR age < 0".toList ∧ "1 OR age < 0".toList.any isQuote = false) ∧
      ofText? "age <=" = some (.compare "age" .lt (.string "=")) ∧
      ofText? "age = " = some (.compare "age" .eq (.string "")) ∧
      ∀ field comparison literal, ¬States "age <=".toList field comparison literal ∧
        ¬States "age = ".toList field comparison literal := by
  have hle : Dangles "age <=".toList :=
    ⟨_, _, @Opens.mk [] "age".toList [' '] ['<', '='] (by decide) (by decide) (by decide),
      ['<', '='], .le, [], ⟨by decide, rfl, by decide⟩, nofun,
      .inr ⟨(['<'], .lt), by decide, by decide, by decide⟩⟩
  have heq : Dangles "age = ".toList :=
    ⟨_, _, @Opens.mk [] "age".toList [' '] ['=', ' '] (by decide) (by decide) (by decide),
      ['='], .eq, [' '], ⟨by decide, rfl, by decide⟩, by decide,
      .inl ⟨' ', List.mem_cons_self, by decide⟩⟩
  refine ⟨by decide +kernel, ⟨⟨"1 OR age ".toList, " 0".toList, rfl⟩, by decide⟩,
    by decide +kernel, by decide +kernel, ?_⟩
  intro field comparison literal
  exact ⟨fun hstates => hstates.not_dangles hle, fun hstates => hstates.not_dangles heq⟩

end Predicate

end ScreenedQuery
