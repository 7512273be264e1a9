import ScreenedQuery.Proofs.Number.Plain
import ScreenedQuery.Proofs.Plan.Numbers
import ScreenedQuery.Proofs.Text.Blank
import ScreenedQuery.Proofs.Value.Literal

/-!
# Literals that are written back

The text of a null, a truth value, an integer or a finite float is read as what it is the text of,
and every text is read when it stands between two equal quotes. A float without a fraction is read
as an integer if that fits 64 bits.

## Main definitions

* `Value.ReadFrom`: what the text of a finite float is read as

## Main results

* `Value.ofLiteral_bare`: a literal without quotes is a word, a number or a text
* `Value.ofLiteral_written`: what is written is read back
-/

namespace ScreenedQuery

open Unicode (AllBlank Encloses isBlank)

variable {c : Char} {text : List Char}

/-! ## Characters of literals -/

theorem isAlpha_of_isBlank (h : isBlank c = true) : c.isAlpha = false :=
  Unicode.eq_false_of_isBlank (by decide) h

theorem isAlpha_of_isQuote (h : isQuote c = true) : c.isAlpha = false := by
  rw [isQuote, Bool.or_eq_true, beq_iff_eq, beq_iff_eq] at h
  rcases h with rfl | rfl <;> rfl

/-- The characters of numbers that are written without an exponent. -/
def IsFigure (c : Char) : Prop := c.isDigit = true ∨ c = '-' ∨ c = '.'

/-- The characters of numbers are neither blank nor quotes nor letters. -/
theorem IsFigure.excluded (h : IsFigure c) :
    isBlank c = false ∧ isQuote c = false ∧ c.isAlpha = false := by
  rcases h with hdigit | rfl | rfl
  · have hrange := isDigit_iff.mp hdigit
    refine ⟨?_, ?_, ?_⟩
    · rw [← Bool.not_eq_true]
      simp only [isBlank, Bool.or_eq_true, Bool.and_eq_true, decide_eq_true_eq, beq_iff_eq]
      omega
    · rw [← Bool.not_eq_true, isQuote, Bool.or_eq_true, beq_iff_eq, beq_iff_eq]
      rintro (rfl | rfl) <;> cases hdigit
    · rw [← Bool.not_eq_true, isAlpha_iff, isUpper_iff, isLower_iff]
      omega
  · decide
  · decide

theorem isFigure_signText {negative : Bool} (h : ∀ c ∈ text, IsFigure c) :
    ∀ c ∈ Json.signText negative text, IsFigure c := by
  cases negative with
  | true => exact List.forall_mem_cons.mpr ⟨.inr (.inl rfl), h⟩
  | false => exact h

theorem Number.IsWholeText.isFigure {n : Int} (h : IsWholeText text n) :
    text ≠ [] ∧ ∀ c ∈ text, IsFigure c := by
  obtain ⟨digits, hne, hdigits, ⟨rfl, -⟩ | ⟨rfl, -⟩⟩ := h
  · exact ⟨hne, fun c hc => .inl (hdigits c hc)⟩
  · exact ⟨List.cons_ne_nil _ _,
      List.forall_mem_cons.mpr ⟨.inr (.inl rfl), fun c hc => .inl (hdigits c hc)⟩⟩

theorem Binary64.isFigure_plain {x : Binary64} (hfinite : x.isFinite = true) :
    x.plain ≠ [] ∧ ∀ c ∈ x.plain, IsFigure c := by
  rcases plain_cases hfinite with ⟨digits, hwhole⟩ | ⟨whole, fraction, hpoint⟩
  · exact hwhole.isWholeText.isFigure
  · have hdigits := List.forall_mem_append.mp hpoint.digit
    rw [hpoint.text]
    refine ⟨?_, isFigure_signText ?_⟩
    · cases x.isNegative <;> simp [Json.signText]
    · refine List.forall_mem_append.mpr ⟨fun c hc => .inl (hdigits.1 c hc), ?_⟩
      exact List.forall_mem_cons.mpr ⟨.inr (.inr rfl), fun c hc => .inl (hdigits.2 c hc)⟩

/-! ## Literals without quotes -/

namespace Value

variable {literal : List Char}

/-- **A literal without quotes** is a word, a number or a text. -/
theorem ofLiteral_bare (h : Encloses literal text)
    (hhead : ∀ c ∈ text.head?, isBlank c = false) (hlast : ∀ c ∈ text.getLast?, isBlank c = false)
    (hquote : ∀ c ∈ text.head?, isQuote c = false) :
    ofLiteral literal =
      ((ofWord? text).or (ofNumber? text)).getD (string (String.ofList text)) := by
  have hquoted : quoted? text = none := by
    cases text with
    | nil => rfl
    | cons c text => simp [quoted?, hquote c rfl]
  rw [ofLiteral, h.trim_eq hhead hlast]
  simp only [hquoted]

/-- **The words of null and the truth values** are read in any case. -/
theorem ofLiteral_word {word : List Char} {v : Value} (h : Encloses literal text)
    (hsame : SameLetters text word)
    (hletters : (word.all fun c => !isBlank c && !isQuote c) = true)
    (hword : ∀ text, SameLetters text word → ofWord? text = some v) : ofLiteral literal = v := by
  have hblank := fun c => @isAlpha_of_isBlank c
  have hletters (d : Char) (hd : d ∈ word) : isBlank d = false ∧ isQuote d = false := by
    simpa using List.all_eq_true.mp hletters d hd
  have hhead (d : Char) (hd : d ∈ word.head?) := hletters d (List.mem_of_mem_head? hd)
  have hlast (d : Char) (hd : d ∈ word.getLast?) := hletters d (List.mem_of_mem_getLast? hd)
  rw [ofLiteral_bare h (hsame.head hblank fun d hd => (hhead d hd).1)
    (hsame.last hblank fun d hd => (hlast d hd).1)
    (hsame.head (fun c => @isAlpha_of_isQuote c) fun d hd => (hhead d hd).2), hword text hsame]
  rfl

/-- A literal of figures is a number, if it is one. -/
theorem ofLiteral_figures (h : Encloses literal text) (hne : text ≠ [])
    (hfigures : ∀ c ∈ text, IsFigure c) :
    ofLiteral literal = (ofNumber? text).getD (string (String.ofList text)) := by
  have hhead (c : Char) (hc : c ∈ text.head?) :=
    (hfigures c (List.mem_of_mem_head? hc)).excluded
  have hlast (c : Char) (hc : c ∈ text.getLast?) :=
    (hfigures c (List.mem_of_mem_getLast? hc)).excluded
  obtain ⟨c, hc⟩ := List.exists_mem_of_ne_nil text hne
  rw [ofLiteral_bare h (fun c hc => (hhead c hc).1) (fun c hc => (hlast c hc).1)
    fun c hc => (hhead c hc).2.1, ofWord?_eq_none hc (hfigures c hc).excluded.2.2]
  rfl

/-- The text of an integer of 64 bits is read as it. -/
theorem ofLiteral_whole {n : Int64} (h : Encloses literal text)
    (hwhole : Number.IsWholeText text n.toInt) : ofLiteral literal = int n := by
  obtain ⟨hne, hfigures⟩ := hwhole.isFigure
  rw [ofLiteral_figures h hne hfigures, ofNumber?, Number.integer?_of_isWholeText hwhole,
    Number.int64?_toInt]
  rfl

theorem ofWord?_null (h : SameLetters text null.display.toList) : ofWord? text = some null := by
  rw [ofWord?, h]
  rfl

theorem ofWord?_bool {b : Bool} (h : SameLetters text (bool b).display.toList) :
    ofWord? text = some (bool b) := by
  rw [ofWord?, h]
  cases b <;> rfl

/-- **What stands between two equal quotes** is read as it stands. -/
theorem ofLiteral_quoted {quote : Char} {inside : List Char} (hquote : quote = '\'' ∨ quote = '"')
    (h : Encloses literal (quote :: (inside ++ [quote]))) :
    ofLiteral literal = string (String.ofList inside) := by
  have hisQuote : isQuote quote = true := by
    rcases hquote with rfl | rfl <;> rfl
  have hblank : isBlank quote = false := by
    rcases hquote with rfl | rfl <;> rfl
  have htrim : Unicode.trim literal = quote :: (inside ++ [quote]) := by
    refine h.trim_eq ?_ ?_
    · rintro c ⟨⟩
      exact hblank
    · rw [← List.cons_append, List.getLast?_concat]
      rintro c ⟨⟩
      exact hblank
  rw [ofLiteral, htrim]
  simp only [quoted?_quote hisQuote]

/-! ## Literals that are written back -/

open Number (IsWholeText)

/-- **What the text of a finite float is read as**: an integer if it has no fraction and the integer
fits 64 bits, and else the float itself. -/
inductive ReadFrom (x : Binary64) : Value → Prop
  | integer {n : Int64} (h : IsWholeText x.plain n.toInt) : ReadFrom x (int n)
  | number (h : ∀ n : Int64, ¬IsWholeText x.plain n.toInt) : ReadFrom x (float x)

variable {x : Binary64}

/-- **Whatever the text of a finite float is read as, it compares as equal with the float.** -/
theorem ReadFrom.compare_eq {v : Value} (hfinite : x.isFinite = true) (h : ReadFrom x v) :
    v.compare (float x) = some .eq := by
  cases h with
  | integer h => exact Binary64.compare_ofInt_of_isWholeText hfinite h
  | number _ => exact Binary64.compare_self (Binary64.isNaN_of_isFinite hfinite)

/-- The text of a finite float is read as a number. -/
theorem exists_ofNumber?_plain (hfinite : x.isFinite = true) :
    ∃ v, ofNumber? x.plain = some v ∧ ReadFrom x v := by
  cases hinteger : Number.integer? x.plain with
  | none =>
    refine ⟨float x, ?_, .number fun n hn => ?_⟩
    · rw [ofNumber?, hinteger, Binary64.decimal?_plain hfinite]
      simp [Option.filter, hfinite]
    · rw [Number.integer?_of_isWholeText hn, Number.int64?_toInt] at hinteger
      cases hinteger
  | some n =>
    refine ⟨int n, by rw [ofNumber?, hinteger], .integer ?_⟩
    rcases Binary64.plain_cases hfinite with ⟨digits, hwhole⟩ | ⟨whole, fraction, hpoint⟩
    · have hvalue := Number.integer?_of_isWholeText hwhole.isWholeText
      rw [hinteger] at hvalue
      rw [Number.toInt_of_int64? hvalue.symm]
      exact hwhole.isWholeText
    · rw [hpoint.integer?_eq] at hinteger
      cases hinteger

/-- The text of a finite float has a point, or is that of a whole number. -/
theorem exists_isWholeText (hfinite : x.isFinite = true) (hpoint : '.' ∉ x.plain) :
    ∃ n, IsWholeText x.plain n := by
  rcases Binary64.plain_cases hfinite with ⟨digits, hwhole⟩ | ⟨whole, fraction, hpart⟩
  · exact ⟨_, hwhole.isWholeText⟩
  · refine absurd ?_ hpoint
    rw [hpart.text]
    cases x.isNegative <;> simp [Json.signText]

variable {before after : List Char}

/-- **What is written is read back**, with any blanks around it.

* The texts of null, of the truth values and of the integers, in any case, are read as these values.
* What stands between two single or two double quotes is read as this text, whatever it holds.
* The text of a finite float is read as a value that compares as equal with the float. It is an
  integer exactly if the text has no fraction and the integer fits 64 bits. -/
theorem ofLiteral_written (hbefore : AllBlank before) (hafter : AllBlank after) :
    (∀ text, SameLetters text null.display.toList →
      ofLiteral (before ++ (text ++ after)) = null) ∧
    (∀ b text, SameLetters text (bool b).display.toList →
      ofLiteral (before ++ (text ++ after)) = bool b) ∧
    (∀ n text, SameLetters text (int n).display.toList →
      ofLiteral (before ++ (text ++ after)) = int n) ∧
    (∀ (quote : Char) (s : String), quote = '\'' ∨ quote = '"' →
      ofLiteral (before ++ (quote :: (s.toList ++ [quote]) ++ after)) = string s) ∧
    ∀ x : Binary64, x.isFinite = true →
      ('.' ∉ (float x).display.toList → ∃ n, IsWholeText (float x).display.toList n) ∧
      ∃ v, ofLiteral (before ++ ((float x).display.toList ++ after)) = v ∧ ReadFrom x v ∧
        v.compare (float x) = some .eq := by
  have hencloses (text : List Char) : Encloses (before ++ (text ++ after)) text :=
    ⟨before, after, hbefore, hafter, rfl⟩
  refine ⟨?_, ?_, ?_, ?_, ?_⟩
  · intro text hsame
    exact ofLiteral_word (hencloses text) hsame (by decide) fun _ => ofWord?_null
  · intro b text hsame
    refine ofLiteral_word (hencloses text) hsame ?_ fun _ => ofWord?_bool
    cases b <;> decide
  · intro n text hsame
    have hwhole : IsWholeText (int n).display.toList n.toInt := Number.isWholeText_toString n.toInt
    -- Figures are no letters, so that the text is the one that is written.
    obtain rfl := hsame.symm.eq_of_not_isAlpha fun c hc => (hwhole.isFigure.2 c hc).excluded.2.2
    exact ofLiteral_whole (hencloses _) hwhole
  · intro quote s hquote
    rw [ofLiteral_quoted hquote (hencloses _), String.ofList_toList]
  · intro x hfinite
    have htext : (float x).display.toList = x.plain := String.toList_ofList
    rw [htext]
    obtain ⟨hne, hfigures⟩ := Binary64.isFigure_plain hfinite
    obtain ⟨v, hread, hfrom⟩ := exists_ofNumber?_plain hfinite
    refine ⟨exists_isWholeText hfinite, v, ?_, hfrom, hfrom.compare_eq hfinite⟩
    rw [ofLiteral_figures (hencloses _) hne hfigures, hread]
    rfl

/-- Between a tab and an ideographic space. -/
theorem ofLiteral_written_apart :
    AllBlank ['\t'] ∧ AllBlank ['\u3000'] ∧
      ofLiteral "\tNull\u3000".toList = null ∧
      ofLiteral "\tFALSE\u3000".toList = bool false ∧
      ofLiteral "\t-9223372036854775808\u3000".toList = int Int64.minValue ∧
      ofLiteral "\t'it''s = \"so\"'\u3000".toList = string "it''s = \"so\"" ∧
      ∃ v, ofLiteral (['\t'] ++ ((float ⟨0xC37FFFFFFFFFFFFF⟩).display.toList ++ ['\u3000'])) = v ∧
        ReadFrom ⟨0xC37FFFFFFFFFFFFF⟩ v ∧ v.compare (float ⟨0xC37FFFFFFFFFFFFF⟩) = some .eq := by
  have hbefore : AllBlank ['\t'] := by decide
  have hafter : AllBlank ['\u3000'] := by decide
  obtain ⟨hnull, hbool, hint, hstring, hfloat⟩ := ofLiteral_written hbefore hafter
  refine ⟨hbefore, hafter, ?_, ?_, ?_, ?_, ?_⟩
  · exact hnull "Null".toList (by decide)
  · exact hbool false "FALSE".toList (by decide)
  · exact hint Int64.minValue "-9223372036854775808".toList (by decide)
  · exact hstring '\'' "it''s = \"so\"" (.inl rfl)
  · exact (hfloat ⟨0xC37FFFFFFFFFFFFF⟩ (by decide)).2

end Value

end ScreenedQuery
