import ScreenedQuery.Proofs.Json.Number
import ScreenedQuery.Proofs.Number.Interval

/-!
# The text of a number for readers

The text of a finite number has its shortest digits, with zeros to the point if there are not enough
of them. Read as a decimal it gives the number back, and so it does read as a whole number when it
has no fraction, up to the sign of a zero.

## Main definitions

* `Number.IsWholeText`: the text of a whole number
* `Binary64.WholePlain`, `Binary64.PointPlain`: a text without a fraction, and with one

## Main results

* `Number.integer?_of_isWholeText`: whole numbers that fit 64 bits are read
* `Binary64.plain_cases`: the text of a finite number, and what its digits denote
* `Binary64.decimal?_plain`: the text of a finite number is read back
* `Binary64.compare_ofInt_of_isWholeText`: so it is when it is read as an integer
-/

namespace ScreenedQuery

open Json (signText)

/-! ## Reading digits behind a sign -/

namespace Number

variable {digits whole fraction text : List Char}

theorem splitSign_signText (hne : digits ≠ []) (hdigits : ∀ c ∈ digits, c.isDigit = true)
    (negative : Bool) (text : List Char) :
    splitSign (signText negative (digits ++ text)) = (negative, digits ++ text) := by
  cases negative with
  | true => rfl
  | false =>
    obtain ⟨c, digits, rfl⟩ := List.exists_cons_of_ne_nil hne
    have hc := hdigits c List.mem_cons_self
    -- A digit is neither of the signs.
    unfold signText splitSign
    split
    · rename_i heq
      rw [(List.cons.inj heq).1] at hc
      exact nomatch hc
    · rename_i heq
      rw [(List.cons.inj heq).1] at hc
      exact nomatch hc
    · rfl

/-- Digits behind a sign are a whole number, if it fits 64 bits. -/
theorem integer?_signText (hne : digits ≠ []) (hdigits : ∀ c ∈ digits, c.isDigit = true)
    (negative : Bool) : integer? (signText negative digits) =
      int64? (if negative then -(digitsValue digits : Int) else digitsValue digits) := by
  have hsign := splitSign_signText hne hdigits negative []
  rw [List.append_nil] at hsign
  simp [integer?, hsign, hne, List.all_eq_true.mpr hdigits]

/-- Digits behind a sign are a decimal number. -/
theorem decimal?_signText (hne : digits ≠ []) (hdigits : ∀ c ∈ digits, c.isDigit = true)
    (negative : Bool) : decimal? (signText negative digits) =
      some (Binary64.ofDecimal negative (digitsValue digits) 0) := by
  have hsign := splitSign_signText hne hdigits negative []
  have hsplit := @splitDigits_append digits [] hdigits nofun
  rw [List.append_nil] at hsign hsplit
  simp [decimal?, hsign, hsplit, hne, exponent?]

/-- Digits with a point among them are no whole number. -/
theorem integer?_signText_point (hne : whole ≠ []) (hwhole : ∀ c ∈ whole, c.isDigit = true)
    (negative : Bool) : integer? (signText negative (whole ++ '.' :: fraction)) = none := by
  have hsign := splitSign_signText hne hwhole negative ('.' :: fraction)
  have hall : (whole ++ '.' :: fraction).all Char.isDigit = false :=
    List.all_eq_false.mpr ⟨'.', by simp, by decide⟩
  simp only [integer?, hsign, hall, Bool.not_false, Bool.or_true, if_true]

/-- Digits with a point among them are a decimal number. -/
theorem decimal?_signText_point (hne : whole ≠ []) (hwhole : ∀ c ∈ whole, c.isDigit = true)
    (hfraction : ∀ c ∈ fraction, c.isDigit = true) (negative : Bool) :
    decimal? (signText negative (whole ++ '.' :: fraction)) =
      some (Binary64.ofDecimal negative (digitsValue (whole ++ fraction)) (-fraction.length)) := by
  have hsign := splitSign_signText hne hwhole negative ('.' :: fraction)
  have hsplit : splitDigits (whole ++ '.' :: fraction) = (whole, '.' :: fraction) :=
    splitDigits_append hwhole (by simp)
  have hrest := @splitDigits_append fraction [] hfraction nofun
  rw [List.append_nil] at hrest
  simp [decimal?, hsign, hsplit, hrest, hne, exponent?]

/-- **The text of a whole number**: digits, behind a minus sign if the number is negative. -/
def IsWholeText (text : List Char) (n : Int) : Prop :=
  ∃ digits, digits ≠ [] ∧ (∀ c ∈ digits, c.isDigit = true) ∧
    ((text = digits ∧ n = digitsValue digits) ∨
      (text = '-' :: digits ∧ n = -(digitsValue digits : Int)))

theorem isWholeText_iff {n : Int} : IsWholeText text n ↔
    ∃ negative digits, digits ≠ [] ∧ (∀ c ∈ digits, c.isDigit = true) ∧
      text = signText negative digits ∧
      n = if negative then -(digitsValue digits : Int) else digitsValue digits := by
  constructor
  · rintro ⟨digits, hne, hdigits, ⟨rfl, rfl⟩ | ⟨rfl, rfl⟩⟩
    · exact ⟨false, _, hne, hdigits, rfl, rfl⟩
    · exact ⟨true, _, hne, hdigits, rfl, rfl⟩
  · rintro ⟨negative, digits, hne, hdigits, rfl, rfl⟩
    cases negative
    · exact ⟨digits, hne, hdigits, .inl ⟨rfl, rfl⟩⟩
    · exact ⟨digits, hne, hdigits, .inr ⟨rfl, rfl⟩⟩

/-- **The text of a whole number is read as the number**, if it fits 64 bits. -/
theorem integer?_of_isWholeText {n : Int} (h : IsWholeText text n) : integer? text = int64? n := by
  obtain ⟨negative, digits, hne, hdigits, rfl, rfl⟩ := isWholeText_iff.mp h
  exact integer?_signText hne hdigits negative

/-- The decimal digits of a whole number are a text of it. -/
theorem isWholeText_toString (n : Int) : IsWholeText (toString n).toList n := by
  have hdigits (m : Nat) := fun c => @isDigit_of_mem_toDigits m c
  cases n with
  | ofNat m =>
    refine ⟨Nat.toDigits 10 m, Nat.toDigits_ne_nil, hdigits m, .inl ⟨?_, ?_⟩⟩
    · exact Nat.toList_repr
    · rw [digitsValue_toDigits]
      rfl
  | negSucc m =>
    refine ⟨Nat.toDigits 10 (m + 1), Nat.toDigits_ne_nil, hdigits (m + 1), .inr ⟨?_, ?_⟩⟩
    · have htext : toString (Int.negSucc m) = "-" ++ (m + 1).repr := rfl
      rw [htext, String.toList_append, Nat.toList_repr]
      rfl
    · rw [digitsValue_toDigits]
      rfl

end Number

/-! ## The text of a finite number -/

namespace Binary64

open Number (digitsValue decimal? integer? IsWholeText)

variable {x : Binary64}

/-- The text of a number without a fraction, and what its digits denote. -/
structure WholePlain (x : Binary64) (digits : List Char) : Prop where
  text : x.plain = signText x.isNegative digits
  ne_nil : digits ≠ []
  digit : ∀ c ∈ digits, c.isDigit = true
  value : ofDecimal x.isNegative (digitsValue digits) 0 = x

/-- The text of a number with a fraction, and what its digits denote. -/
structure PointPlain (x : Binary64) (whole fraction : List Char) : Prop where
  text : x.plain = signText x.isNegative (whole ++ '.' :: fraction)
  ne_nil : whole ≠ []
  digit : ∀ c ∈ whole ++ fraction, c.isDigit = true
  value : ofDecimal x.isNegative (digitsValue (whole ++ fraction)) (-fraction.length) = x

theorem plain_eq_signText (hfinite : x.isFinite = true) (hzero : x.isZero = false) :
    x.plain = signText x.isNegative (x.shortest .up).positional := by
  rw [plain, isNaN_of_isFinite hfinite, hfinite, hzero]
  rfl

/-- **The text of a zero** is the digit zero. -/
theorem wholePlain_of_isZero (hzero : x.isZero = true) : x.WholePlain ['0'] := by
  have hmagnitude : x.magnitude = 0 := by simpa [isZero] using hzero
  have hfinite : x.isFinite = true := by
    rw [isFinite, hmagnitude]
    decide
  refine ⟨?_, List.cons_ne_nil _ _, List.forall_mem_singleton.mpr rfl, ?_⟩
  · rw [plain, isNaN_of_isFinite hfinite, hfinite, hzero]
    rfl
  · have hvalue : ofDecimal x.isNegative (digitsValue ['0']) 0 = ofMagnitude x.isNegative 0 := rfl
    rw [hvalue, ← hmagnitude, ofMagnitude_magnitude]

/-- The text of a number whose digits do not reach the point. -/
theorem wholePlain_of_le (hfinite : x.isFinite = true) (hzero : x.isZero = false) {place : Nat}
    (hplace : (x.shortest .up).point = place) (hpos : 0 < place)
    (hle : (x.shortest .up).digits.length ≤ place) :
    x.WholePlain ((x.shortest .up).digits ++
      List.replicate (place - (x.shortest .up).digits.length) '0') := by
  have htakes := takesDecimal_shortest hzero .up
  have hnormal := (shortest_spec hzero .up).1
  have hplain := plain_eq_signText hfinite hzero
  generalize x.shortest .up = d at *
  have hwritten := Json.written_behind hnormal hplace hpos hle
  refine ⟨?_, ?_, ?_, ?_⟩
  · have hpoint : ¬(place : Int) ≤ 0 := by omega
    rw [hplain, Decimal.positional, hplace, if_neg hpoint, Int.toNat_natCast]
    simp only [hle, if_true]
  · exact List.append_ne_nil_of_left_ne_nil hnormal.ne_nil _
  · intro c hc
    exact hwritten.digit c (List.mem_append_left _ hc)
  · rw [Number.digitsValue_append_zeros]
    refine TakesDecimal.ofDecimal_eq hfinite hzero (takesDecimal_zeros.mpr ?_)
    dsimp only at htakes
    rwa [hplace, ← Nat.cast_sub hle, ← Int.zero_add (_ : Nat)] at htakes

/-- The text of a number whose digits go beyond the point. -/
theorem pointPlain_of_written (hfinite : x.isFinite = true) (hzero : x.isZero = false)
    {whole fraction : List Char}
    (hwritten : Json.Written (x.shortest .up) whole fraction 0)
    (hwhole : (x.shortest .up).isWhole = false) : x.PointPlain whole fraction := by
  have htakes := takesDecimal_shortest hzero .up
  have htext := hwritten.text
  rw [hwhole] at htext
  refine ⟨?_, ?_, hwritten.digit, ?_⟩
  · rw [plain_eq_signText hfinite hzero, ← htext]
    simp
  · rintro rfl
    exact nomatch hwritten.form
  · refine TakesDecimal.ofDecimal_eq hfinite hzero ?_
    rw [hwritten.value, hwritten.place, takesDecimal_zeros, Int.sub_add_cancel]
    exact htakes

/-- **The text of a finite number** has no fraction, or it has one. -/
theorem plain_cases (hfinite : x.isFinite = true) :
    (∃ digits, x.WholePlain digits) ∨ ∃ whole fraction, x.PointPlain whole fraction := by
  cases hzero : x.isZero with
  | true => exact .inl ⟨_, wholePlain_of_isZero hzero⟩
  | false =>
    have hnormal := (shortest_spec hzero .up).1
    have hlength := List.length_pos_iff.mpr hnormal.ne_nil
    have hnot {place : Int} (hpoint : (x.shortest .up).point = place)
        (hlt : place < (x.shortest .up).digits.length) : (x.shortest .up).isWhole = false := by
      rw [Decimal.isWhole, decide_eq_false_iff_not]
      omega
    rcases Int.lt_or_le 0 (x.shortest .up).point with hpos | hfront
    · obtain ⟨place, hplace⟩ := Int.eq_ofNat_of_zero_le hpos.le
      rcases Nat.lt_or_ge place (x.shortest .up).digits.length with hlt | hge
      · exact .inr ⟨_, _, pointPlain_of_written hfinite hzero
          (Json.written_among hnormal hplace (by omega) hlt) (hnot hplace (by omega))⟩
      · exact .inl ⟨_, wholePlain_of_le hfinite hzero hplace (by omega) hge⟩
    · exact .inr ⟨_, _, pointPlain_of_written hfinite hzero
        (Json.written_front hnormal hfront) (hnot rfl (by omega))⟩

/-! ## Reading the text of a number -/

theorem WholePlain.isWholeText {digits : List Char} (h : x.WholePlain digits) :
    IsWholeText x.plain
      (if x.isNegative then -(digitsValue digits : Int) else digitsValue digits) :=
  Number.isWholeText_iff.mpr ⟨x.isNegative, digits, h.ne_nil, h.digit, h.text, rfl⟩

theorem PointPlain.integer?_eq {whole fraction : List Char} (h : x.PointPlain whole fraction) :
    integer? x.plain = none := by
  rw [h.text]
  exact Number.integer?_signText_point h.ne_nil
    (fun c hc => h.digit c (List.mem_append_left _ hc)) _

/-- **The text of a finite number is read back** as a decimal. -/
theorem decimal?_plain (hfinite : x.isFinite = true) : decimal? x.plain = some x := by
  rcases plain_cases hfinite with ⟨digits, hwhole⟩ | ⟨whole, fraction, hpoint⟩
  · rw [hwhole.text, Number.decimal?_signText hwhole.ne_nil hwhole.digit, hwhole.value]
  · have hdigits := List.forall_mem_append.mp hpoint.digit
    rw [hpoint.text, Number.decimal?_signText_point hpoint.ne_nil hdigits.1 hdigits.2,
      hpoint.value]

/-- A decimal without a fraction is rounded like a whole number. -/
theorem ofDecimal_eq_ofInt {n : Nat} (h : 0 < n) (negative : Bool) :
    ofDecimal negative n 0 = ofInt (if negative then -(n : Int) else n) := by
  have hdecimal : ofDecimal negative n 0 = ofRatio negative (n * 1) 1 := by
    rw [ofDecimal, if_neg (by omega), if_neg (by decide), if_neg (by omega)]
    rfl
  rw [hdecimal, Nat.mul_one]
  cases negative with
  | true => simp [ofInt, h]
  | false => simp [ofInt, not_lt.mpr (Int.natCast_nonneg n)]

/-- **A number whose text is that of an integer compares as equal with it.** -/
theorem compare_ofInt_of_isWholeText (hfinite : x.isFinite = true) {n : Int64}
    (h : IsWholeText x.plain n.toInt) : (ofInt n.toInt).compare x = some .eq := by
  have hread := Number.integer?_of_isWholeText h
  rw [Number.int64?_toInt] at hread
  rcases plain_cases hfinite with ⟨digits, hwhole⟩ | ⟨whole, fraction, hpoint⟩
  · have hvalue := Number.integer?_of_isWholeText hwhole.isWholeText
    rw [hread] at hvalue
    rw [Number.toInt_of_int64? hvalue.symm]
    have hx := hwhole.value
    rcases Nat.eq_zero_or_pos (digitsValue digits) with hzero | hpos
    · -- Both zeros are read as the integer zero.
      rw [hzero] at hx ⊢
      rw [← hx]
      cases x.isNegative <;> decide +kernel
    · rw [← ofDecimal_eq_ofInt hpos, hx]
      exact compare_self (isNaN_of_isFinite hfinite)
  · rw [hpoint.integer?_eq] at hread
    exact nomatch hread

end Binary64

end ScreenedQuery
