import Mathlib.Data.List.Induction
import ScreenedQuery.Json.Number
import ScreenedQuery.Json.Writer
import ScreenedQuery.Proofs.Number.Shortest

/-!
# JSON numbers read back

The text of a whole number of 64 bits is read as this number. The text of any other finite number
is read as a finite number: the digits that are written are all read, and the two roundings of the
reader do not leave the range.

## Main definitions

* `Json.EndsNumber`: a text that does not go on with a part of a number
* `Json.signText`: a text behind the sign of a number
* `Json.Written`: how a decimal is written around a point
* `Binary64.reread`: what the text of a number is read as

## Main results

* `Json.readNumber_parts`: a number is read from its sign, its digits and its exponent
* `Json.readNumber_wholeText`: whole numbers are read back
* `Json.readNumber_scientific`, `Json.readNumber_positional`: the digits of a decimal are all read
* `Json.exists_readNumber_jsonText`: the text of a finite number is read as a finite number
-/

namespace ScreenedQuery

namespace Json

open Number (digitsValue digitValue splitDigits)

/-! ## Digits -/

/-- Digits of a number that fits 64 bits are all gathered. -/
theorem gatherWhole_of_le {digits : List Char} (h : digitsValue digits ≤ wordLimit) :
    gatherWhole digits = (digitsValue digits, 0) := by
  induction digits using List.reverseRecOn with
  | nil => rfl
  | append_singleton digits c ih =>
    rw [Number.digitsValue_append_digit] at h
    have hfirst := ih (by omega)
    rw [gatherWhole] at hfirst
    rw [gatherWhole, List.foldl_append, hfirst, Number.digitsValue_append_digit]
    simp [h]

/-- Digits of a fraction are all gathered as long as the number fits 64 bits. -/
theorem gatherFraction_of_le {whole fraction : List Char}
    (h : digitsValue (whole ++ fraction) ≤ wordLimit) :
    gatherFraction (digitsValue whole) fraction =
      (digitsValue (whole ++ fraction), fraction.length) := by
  induction fraction generalizing whole with
  | nil => simp [gatherFraction]
  | cons c fraction ih =>
    rw [List.append_cons] at h ⊢
    have hle := le_trans (Number.digitsValue_le_append (whole ++ [c]) fraction) h
    have hrest := ih h
    rw [Number.digitsValue_append_digit] at hle hrest
    simp [gatherFraction, hle, hrest]

/-- **A number with a fraction is read with all its digits** when they fit 64 bits. -/
theorem ofFraction_eq {whole fraction : List Char}
    (h : digitsValue (whole ++ fraction) ≤ wordLimit) (negative : Bool) (exponent : Int) :
    ofFraction negative whole fraction exponent =
      ofScaled negative (digitsValue (whole ++ fraction)) (exponent - fraction.length) := by
  have hwhole := gatherWhole_of_le (le_trans (Number.digitsValue_le_append whole fraction) h)
  have hexponent : (0 : Nat) - (fraction.length : Int) + exponent = exponent - fraction.length := by
    omega
  simp only [ofFraction, hwhole, gatherFraction_of_le h, hexponent]

/-! ## The parts of a number -/

/-- A text that does not go on with a part of a number. -/
def EndsNumber (text : List Char) : Prop :=
  ∀ c ∈ text.head?, c.isDigit = false ∧ c ≠ '.' ∧ c ≠ 'e' ∧ c ≠ 'E'

theorem readFraction_of_ends {text : List Char} (h : EndsNumber text) :
    readFraction text = some (none, text) := by
  unfold readFraction
  split
  · exact absurd rfl (h '.' rfl).2.1
  · rfl

theorem readExponent_of_ends {text : List Char} (h : EndsNumber text) :
    readExponent text = some (none, text) := by
  cases text with
  | nil => rfl
  | cons c text =>
    obtain ⟨-, -, he, hE⟩ := h c rfl
    simp [readExponent, he, hE]

/-- Digits are a whole form when no zero stands in front of others. -/
theorem isWholeForm_of_head {digits : List Char} (hne : digits ≠ [])
    (hhead : digits.head? ≠ some '0') : isWholeForm digits = true := by
  cases digits with
  | nil => exact absurd rfl hne
  | cons c digits =>
    have hc : c ≠ '0' := by simpa using hhead
    unfold isWholeForm
    split <;> simp_all

theorem isWholeForm_toDigits (n : Nat) : isWholeForm (Nat.toDigits 10 n) = true := by
  by_cases hn : n = 0
  · subst hn
    rfl
  · exact isWholeForm_of_head Nat.toDigits_ne_nil
      (Number.head_toDigits_ne_zero (Nat.pos_of_ne_zero hn))

/-- A text behind the sign of a number. -/
def signText (negative : Bool) (text : List Char) : List Char :=
  if negative then '-' :: text else text

/-- The number of a sign, digits, a fraction and an exponent. -/
def ofParts (negative : Bool) (whole : List Char) : Option (List Char) → Option Int → Json
  | none, none => ofWhole negative whole
  | fraction, exponent => ofFraction negative whole (fraction.getD []) (exponent.getD 0)

/-- **A number is read from its parts**: the sign, the digits, the fraction and the exponent. -/
theorem readNumber_parts {whole tail more rest : List Char} {fraction : Option (List Char)}
    {exponent : Option Int} (hform : isWholeForm whole = true)
    (hdigits : ∀ c ∈ whole, c.isDigit = true) (htail : ∀ c ∈ tail.head?, c.isDigit = false)
    (hfraction : readFraction tail = some (fraction, more))
    (hexponent : readExponent more = some (exponent, rest)) (negative : Bool) :
    readNumber (signText negative whole ++ tail) =
      some (ofParts negative whole fraction exponent, rest) := by
  have hsplit := Number.splitDigits_append hdigits htail
  cases negative with
  | true =>
    rw [signText, if_pos rfl, List.cons_append, readNumber]
    simp only [hsplit, hform, hfraction, hexponent, Option.bind_eq_bind, Option.bind_some]
    cases fraction <;> cases exponent <;> rfl
  | false =>
    -- A digit is no sign.
    have hsign (text : List Char) : whole ++ tail ≠ '-' :: text := by
      intro htext
      cases whole with
      | nil => simp [isWholeForm] at hform
      | cons c whole =>
        have hc := hdigits c List.mem_cons_self
        rw [List.cons_append, List.cons.injEq] at htext
        rw [htext.1] at hc
        exact absurd hc (by decide)
    rw [signText, if_neg (by decide), readNumber]
    · simp only [hsplit, hform, hfraction, hexponent, Option.bind_eq_bind, Option.bind_some]
      cases fraction <;> cases exponent <;> rfl
    · exact hsign

/-! ## Whole numbers -/

/-- **Whole numbers of 64 bits are read back**, with a sign or without. -/
theorem readNumber_wholeText {n : Int} (hlow : Int64.minValue.toInt ≤ n) (hhigh : n < UInt64.size)
    {rest : List Char} (hrest : EndsNumber rest) :
    readNumber (wholeText n ++ rest) = some (integer n, rest) := by
  have hmin : Int64.minValue.toInt = -9223372036854775808 := by decide
  have hmax : Int64.maxValue.toInt = 9223372036854775807 := by decide
  have hhigh : n < 18446744073709551616 := hhigh
  have hlimit : wordLimit = 18446744073709551615 := rfl
  have hgather : gatherWhole (Nat.toDigits 10 n.natAbs) = (n.natAbs, 0) := by
    rw [gatherWhole_of_le (by rw [Number.digitsValue_toDigits]; omega),
      Number.digitsValue_toDigits]
  have hwhole : ofWhole (decide (n < 0)) (Nat.toDigits 10 n.natAbs) = integer n := by
    by_cases hneg : n < 0
    · have habs : -(n.natAbs : Int) = n := by omega
      have hsome : Number.int64? n = some (Int64.ofInt n) := if_pos ⟨hlow, by omega⟩
      have hne : n.natAbs ≠ 0 := by omega
      simp only [ofWhole, hgather, habs, hsome, hneg]
      simp [hne]
    · have habs : (n.natAbs : Int) = n := by omega
      simp [ofWhole, hgather, habs, hneg]
  have htext : wholeText n = signText (decide (n < 0)) (Nat.toDigits 10 n.natAbs) := by
    simp [wholeText, signText]
  rw [htext, readNumber_parts (isWholeForm_toDigits _)
    (fun c hc => Number.isDigit_of_mem_toDigits hc) (fun c hc => (hrest c hc).1)
    (readFraction_of_ends hrest) (readExponent_of_ends hrest)]
  rw [ofParts, hwhole]

/-! ## Decimals -/

theorem signText_append (negative : Bool) (text rest : List Char) :
    signText negative (text ++ rest) = signText negative text ++ rest := by
  cases negative <;> rfl

/-- A number with a point and without an exponent. -/
theorem readNumber_point {whole fraction rest : List Char} (hform : isWholeForm whole = true)
    (hdigits : ∀ c ∈ whole ++ fraction, c.isDigit = true) (hne : fraction ≠ [])
    (hle : digitsValue (whole ++ fraction) ≤ wordLimit) (hrest : EndsNumber rest)
    (negative : Bool) :
    readNumber (signText negative (whole ++ '.' :: fraction) ++ rest) =
      some (ofScaled negative (digitsValue (whole ++ fraction)) (-fraction.length), rest) := by
  rw [List.forall_mem_append] at hdigits
  have hfraction : readFraction ('.' :: (fraction ++ rest)) = some (some fraction, rest) := by
    have hsplit := Number.splitDigits_append hdigits.2 fun c hc => (hrest c hc).1
    simp [readFraction, hsplit, hne]
  rw [signText_append, List.append_assoc, List.cons_append, readNumber_parts hform hdigits.1
    (by simp) hfraction (readExponent_of_ends hrest), ofParts, Option.getD_some,
    Option.getD_none, ofFraction_eq hle, Int.zero_sub]
  exact nofun

/-- The exponent of a number, with its sign. -/
theorem readExponent_scientific (exponent : Int) {rest : List Char} (hrest : EndsNumber rest) :
    readExponent ('e' :: (if exponent < 0 then '-' else '+') ::
      (Nat.toDigits 10 exponent.natAbs ++ rest)) = some (some exponent, rest) := by
  have hsplit := @Number.splitDigits_append (Nat.toDigits 10 exponent.natAbs) rest
    (fun c hc => Number.isDigit_of_mem_toDigits hc) fun c hc => (hrest c hc).1
  generalize hn : exponent.natAbs = n at hsplit ⊢
  by_cases hneg : exponent < 0
  · have habs : -(n : Int) = exponent := by omega
    simp [readExponent, Number.splitSign, hneg, hsplit, Nat.toDigits_ne_nil, habs]
  · have habs : (n : Int) = exponent := by omega
    simp [readExponent, Number.splitSign, hneg, hsplit, Nat.toDigits_ne_nil, habs]

/-- A fraction as it is written: nothing, or digits behind a point. -/
def pointText : List Char → List Char
  | [] => []
  | digits => '.' :: digits

/-- A fraction in front of an exponent. -/
theorem readFraction_pointText {digits : List Char} (h : ∀ c ∈ digits, c.isDigit = true)
    (text : List Char) : ∃ fraction, readFraction (pointText digits ++ 'e' :: text) =
      some (fraction, 'e' :: text) ∧ fraction.getD [] = digits := by
  cases digits with
  | nil => exact ⟨none, rfl, rfl⟩
  | cons c digits =>
    have hsplit : Number.splitDigits (c :: digits ++ 'e' :: text) = (c :: digits, 'e' :: text) :=
      Number.splitDigits_append h (by simp)
    refine ⟨some (c :: digits), ?_, rfl⟩
    rw [pointText, List.cons_append, readFraction, hsplit]
    · rfl
    · exact nofun

variable {d : Decimal} {rest : List Char}

/-- **A decimal in scientific notation is read with all its digits.** -/
theorem readNumber_scientific (h : d.Normal) (hle : digitsValue d.digits ≤ wordLimit)
    (hrest : EndsNumber rest) (negative : Bool) :
    readNumber (signText negative d.scientific ++ rest) =
      some (ofScaled negative (digitsValue d.digits) (d.point - d.digits.length), rest) := by
  have hexponent := readExponent_scientific (d.point - 1) hrest
  obtain ⟨digits, point⟩ := d
  obtain ⟨hne, hhead, hdigit⟩ := h
  obtain ⟨first, digits, rfl⟩ := List.exists_cons_of_ne_nil hne
  dsimp only at hexponent hhead hdigit hle ⊢
  rw [List.forall_mem_cons] at hdigit
  have htext : Decimal.scientific ⟨first :: digits, point⟩ = [first] ++ (pointText digits ++
      'e' :: (if point - 1 < 0 then '-' else '+') :: Nat.toDigits 10 (point - 1).natAbs) := by
    cases digits <;> rfl
  obtain ⟨fraction, hfraction, hdigits⟩ := readFraction_pointText hdigit.2
    ((if point - 1 < 0 then '-' else '+') :: (Nat.toDigits 10 (point - 1).natAbs ++ rest))
  have hstop : ∀ c ∈ (pointText digits ++ 'e' :: (if point - 1 < 0 then '-' else '+') ::
      (Nat.toDigits 10 (point - 1).natAbs ++ rest)).head?, c.isDigit = false := by
    cases digits <;> simp [pointText]
  have hlength : point - 1 - digits.length = point - (first :: digits).length := by
    rw [List.length_cons]
    omega
  have hread := readNumber_parts (isWholeForm_of_head (List.cons_ne_nil first []) hhead)
    (by simpa using hdigit.1) hstop hfraction hexponent negative
  have hparts : ofParts negative [first] fraction (some (point - 1)) =
      ofScaled negative (digitsValue (first :: digits)) (point - (first :: digits).length) := by
    rw [ofParts, hdigits, Option.getD_some, ofFraction_eq hle, hlength, List.singleton_append]
    exact nofun
  rw [hparts] at hread
  rw [htext, signText_append, List.append_assoc, List.append_assoc]
  exact hread

/-- **How a decimal is written around a point**: the digits before and behind it, and how many zeros
stand behind the digits of the decimal. -/
structure Written (d : Decimal) (whole fraction : List Char) (zeros : Nat) : Prop where
  text : d.positional ++ (if d.isWhole then ['.', '0'] else []) = whole ++ '.' :: fraction
  form : isWholeForm whole = true
  digit : ∀ c ∈ whole ++ fraction, c.isDigit = true
  ne_nil : fraction ≠ []
  value : digitsValue (whole ++ fraction) = digitsValue d.digits * 10 ^ zeros
  place : -(fraction.length : Int) = d.point - d.digits.length - zeros
  zeros_eq : zeros = 0 ∨ (d.digits.length + zeros : Int) = d.point + 1

/-- The point stands in front of the digits. -/
theorem written_front (h : d.Normal) (hpoint : d.point ≤ 0) :
    Written d ['0'] (List.replicate (-d.point).toNat '0' ++ d.digits) 0 := by
  have hpos := List.length_pos_iff.mpr h.ne_nil
  refine ⟨?_, rfl, ?_, List.append_ne_nil_of_right_ne_nil _ h.ne_nil, ?_, ?_, .inl rfl⟩
  · have hwhole : d.isWhole = false := by
      rw [Decimal.isWhole, decide_eq_false_iff_not]
      omega
    simp [Decimal.positional, hwhole, hpoint]
  · intro c hc
    rw [List.singleton_append, List.mem_cons, List.mem_append] at hc
    rcases hc with rfl | hc | hc
    · rfl
    · rw [List.eq_of_mem_replicate hc]
      rfl
    · exact h.digit c hc
  · rw [Nat.pow_zero, Nat.mul_one]
    exact Number.digitsValue_zeros_append ((-d.point).toNat + 1) d.digits
  · rw [List.length_append, List.length_replicate]
    omega

/-- The point stands among the digits. -/
theorem written_among (h : d.Normal) {place : Nat} (hplace : d.point = place) (hpos : 0 < place)
    (hlt : place < d.digits.length) :
    Written d (d.digits.take place) (d.digits.drop place) 0 := by
  have hdigits : d.digits.take place ++ d.digits.drop place = d.digits := List.take_append_drop _ _
  have htake : d.digits.take place ≠ [] :=
    List.ne_nil_of_length_pos (by rw [List.length_take]; omega)
  refine ⟨?_, isWholeForm_of_head htake ?_, ?_, ?_, ?_, ?_, .inl rfl⟩
  · have hwhole : d.isWhole = false := by
      rw [Decimal.isWhole, decide_eq_false_iff_not]
      omega
    simp [Decimal.positional, hwhole, hplace, not_le.mpr hlt, hpos.ne']
  · rw [List.head?_take, if_neg hpos.ne']
    exact h.head
  · rw [hdigits]
    exact h.digit
  · exact List.ne_nil_of_length_pos (by rw [List.length_drop]; omega)
  · rw [hdigits, Nat.pow_zero, Nat.mul_one]
  · rw [List.length_drop]
    omega

/-- The point stands behind the digits. -/
theorem written_behind (h : d.Normal) {place : Nat} (hplace : d.point = place) (hpos : 0 < place)
    (hle : d.digits.length ≤ place) :
    Written d (d.digits ++ List.replicate (place - d.digits.length) '0') ['0']
      (place - d.digits.length + 1) := by
  obtain ⟨first, digits, hcons⟩ := List.exists_cons_of_ne_nil h.ne_nil
  refine ⟨?_, isWholeForm_of_head ?_ ?_, ?_, List.cons_ne_nil _ _, ?_, ?_, .inr (by omega)⟩
  · have hwhole : d.isWhole = true := by
      rw [Decimal.isWhole, decide_eq_true_eq]
      omega
    simp [Decimal.positional, hwhole, hplace, hle, hpos.ne']
  · simp [hcons]
  · have hhead := h.head
    rw [hcons] at hhead ⊢
    exact hhead
  · intro c hc
    rw [List.append_assoc, ← List.replicate_succ', List.mem_append] at hc
    rcases hc with hc | hc
    · exact h.digit c hc
    · rw [List.eq_of_mem_replicate hc]
      rfl
  · rw [List.append_assoc, ← List.replicate_succ', Number.digitsValue_append_zeros]
  · rw [List.length_singleton]
    omega

theorem exists_written (h : d.Normal) : ∃ whole fraction zeros, Written d whole fraction zeros := by
  rcases Int.lt_or_le 0 d.point with hwhole | hfront
  · obtain ⟨place, hplace⟩ := Int.eq_ofNat_of_zero_le hwhole.le
    rcases Nat.lt_or_ge place d.digits.length with hlt | hge
    · exact ⟨_, _, _, written_among h hplace (by omega) hlt⟩
    · exact ⟨_, _, _, written_behind h hplace (by omega) hge⟩
  · exact ⟨_, _, _, written_front h hfront⟩

/-- **A decimal in positional notation is read with all its digits**, and with the zeros that are
written behind them. -/
theorem readNumber_positional (h : d.Normal) (hpoint : d.point ≤ 16)
    (hle : digitsValue d.digits ≤ wordLimit) (negative : Bool) : ∃ zeros : Nat,
      d.point - d.digits.length - zeros < 0 ∧ digitsValue d.digits * 10 ^ zeros ≤ wordLimit ∧
      ∀ rest, EndsNumber rest → readNumber (signText negative
          (d.positional ++ if d.isWhole then ['.', '0'] else []) ++ rest) =
        some (ofScaled negative (digitsValue d.digits * 10 ^ zeros)
          (d.point - d.digits.length - zeros), rest) := by
  obtain ⟨whole, fraction, zeros, hwritten⟩ := exists_written h
  have hlimit : digitsValue d.digits * 10 ^ zeros ≤ wordLimit := by
    rcases hwritten.zeros_eq with rfl | hzeros
    · rwa [Nat.pow_zero, Nat.mul_one]
    · -- There are no more than seventeen digits with the zeros.
      have hlt := Nat.mul_lt_mul_of_pos_right (Number.digitsValue_lt h.digit)
        (Nat.pow_pos (n := zeros) (by decide : 0 < 10))
      rw [← Nat.pow_add] at hlt
      have hpow : 10 ^ (d.digits.length + zeros) ≤ 10 ^ 17 :=
        Nat.pow_le_pow_right (by decide) (by omega)
      exact le_trans (le_trans hlt.le hpow) (by decide)
  have hfraction := List.length_pos_iff.mpr hwritten.ne_nil
  have hplace := hwritten.place
  refine ⟨zeros, by omega, hlimit, fun rest hrest => ?_⟩
  rw [hwritten.text, readNumber_point hwritten.form hwritten.digit hwritten.ne_nil
    (by rwa [hwritten.value]) hrest, hwritten.value, hplace]

/-! ## Numbers in the range -/

open Binary64 (ofInt isFinite_ofInt isFinite_div isFinite_neg scaled_ofInt)

theorem powerOfTen_le {n : Nat} (h : n ≤ 308) : 10 ^ n ≤ 10 ^ 308 := by
  generalize 308 = k at h ⊢
  exact Nat.pow_le_pow_right (by decide) h

/-- Dividing by a power of ten keeps a number finite. -/
theorem isFinite_div_powerOfTen {x : Binary64} (h : x.isFinite = true) {n : Nat} (hn : n ≤ 308) :
    (x.div (powerOfTen n)).isFinite = true :=
  isFinite_div h (scaled_ofInt (Nat.pow_pos (by decide)) (powerOfTen_le hn)).1

/-- **A negative power of ten does not leave the range.** -/
theorem exists_scaleByTen_of_neg {x : Binary64} (h : x.isFinite = true) {exponent : Int}
    (hneg : exponent < 0) : ∃ y, scaleByTen x exponent = some y ∧ y.isFinite = true := by
  fun_induction scaleByTen x exponent with
  | case1 x => exact ⟨x, rfl, h⟩
  | case2 x exponent hlow _ ih => exact ih (isFinite_div_powerOfTen h (Nat.le_refl _)) (by omega)
  | case3 x exponent => exact ⟨_, rfl, isFinite_div_powerOfTen h (by omega)⟩
  | case4 x exponent _ hge => exact absurd hneg hge
  | case5 x exponent _ hge => exact absurd hneg hge
  | case6 x exponent _ hge => exact absurd hneg hge

/-- A power of ten that is not negative and does not leave the range. -/
theorem exists_scaleByTen_of_isFinite {x : Binary64} {exponent : Nat} (hle : exponent ≤ 308)
    (hx : x.isFinite = true) (hfinite : (x.mul (powerOfTen exponent)).isFinite = true) :
    ∃ y, scaleByTen x exponent = some y ∧ y.isFinite = true := by
  rw [scaleByTen, if_neg (by omega), if_neg (by omega)]
  split
  · exact ⟨x, rfl, hx⟩
  · rw [if_neg (by omega), Int.toNat_natCast]
    exact ⟨_, by simp [Option.filter, hfinite], hfinite⟩

/-- What is written with an exponent that is not negative, for all numbers but the three largest
of either sign. -/
theorem isFinite_mul_powerOfTen {x : Binary64} (hx : x.isZero = false)
    (h : x.magnitude + 3 < Binary64.infinityMagnitude) {exponent : Nat}
    (hexponent : (x.shortest .even).point - (x.shortest .even).digits.length = exponent) :
    exponent ≤ 308 ∧ ((ofInt (digitsValue (x.shortest .even).digits)).mul
      (powerOfTen exponent)).isFinite = true := by
  obtain ⟨-, hpos, hle, hbound⟩ := Binary64.shortest_spec hx .even
  have hhigh := hbound exponent hexponent
  have hscaled := Binary64.scaled_le (by decide) h
  have hunit := Binary64.two_pow_unitExponent_le (lt_of_le_of_lt (Nat.le_add_right _ 3) h)
  generalize digitsValue (x.shortest .even).digits = value at hpos hle hhigh ⊢
  have hproduct : 2 * (value * 10 ^ exponent * Binary64.unitsInOne) ≤
      (4 * Binary64.exponentUnit - 7) * Binary64.largestUnit := by
    rw [Nat.mul_left_comm] at hhigh
    simp only [Binary64.exponentUnit] at hscaled ⊢
    omega
  -- With a larger exponent the value alone would be above the interval.
  have hexponent : exponent ≤ 308 := by
    by_contra hgt
    have hpow : 10 ^ 309 ≤ 10 ^ exponent := by
      have hle : 309 ≤ exponent := by omega
      generalize 309 = n at hle ⊢
      exact Nat.pow_le_pow_right (by decide) hle
    have hmul : 10 ^ 309 * Binary64.unitsInOne ≤ value * 10 ^ exponent * Binary64.unitsInOne :=
      Nat.mul_le_mul_right _ (le_trans hpow (Nat.le_mul_of_pos_left _ hpos))
    have hover : (4 * Binary64.exponentUnit - 7) * Binary64.largestUnit <
        2 * (10 ^ 309 * Binary64.unitsInOne) := by decide +kernel
    omega
  refine ⟨hexponent, Binary64.isFinite_mul_ofInt hpos (le_trans hle (powerOfTen_le (by decide)))
    (Nat.pow_pos (by decide)) (powerOfTen_le hexponent) hproduct⟩

/-- The three largest numbers of either sign, one by one. -/
theorem isFinite_mul_powerOfTen_largest : ∀ negative, ∀ n < 3,
    let d := (Binary64.ofMagnitude negative (Binary64.infinityMagnitude - (n + 1))).shortest .even
    0 ≤ d.point - d.digits.length ∧ d.point - d.digits.length ≤ 308 ∧
      ((ofInt (digitsValue d.digits)).mul
        (powerOfTen (d.point - d.digits.length).toNat)).isFinite = true := by
  decide +kernel

theorem ofScaled_eq {significand : Nat} {exponent : Int} {x : Binary64}
    (h : scaleByTen (ofInt significand) exponent = some x) (negative : Bool) :
    ofScaled negative significand exponent = real (if negative then x.neg else x) := by
  rw [ofScaled, h]

theorem isFinite_sign {x : Binary64} (h : x.isFinite = true) (negative : Bool) :
    (if negative then x.neg else x).isFinite = true := by
  cases negative
  · exact h
  · exact isFinite_neg h

theorem isFinite_ofWord {n : Nat} (h : n ≤ wordLimit) : (ofInt n).isFinite = true := by
  have hlimit : wordLimit ≤ 10 ^ 308 := by decide +kernel
  exact isFinite_ofInt (le_trans h hlimit)

/-- Digits with a negative exponent are read as a finite number. -/
theorem exists_ofScaled_of_neg {significand : Nat} (hle : significand ≤ wordLimit) {exponent : Int}
    (hneg : exponent < 0) (negative : Bool) :
    ∃ y : Binary64, y.isFinite = true ∧ ofScaled negative significand exponent = real y := by
  obtain ⟨x, hx, hfinite⟩ := exists_scaleByTen_of_neg (isFinite_ofWord hle) hneg
  exact ⟨_, isFinite_sign hfinite negative, ofScaled_eq hx negative⟩

/-- **The digits of a finite number are read as a finite number.** -/
theorem exists_ofScaled_shortest {x : Binary64} (hfinite : x.isFinite = true)
    (hx : x.isZero = false) (negative : Bool) : ∃ y : Binary64, y.isFinite = true ∧
      ofScaled negative (digitsValue (x.shortest .even).digits)
        ((x.shortest .even).point - (x.shortest .even).digits.length) = real y := by
  obtain ⟨-, -, hle, -⟩ := Binary64.shortest_spec hx .even
  rcases Int.lt_or_le ((x.shortest .even).point - (x.shortest .even).digits.length) 0 with
    hneg | hnonneg
  · exact exists_ofScaled_of_neg (le_trans hle (by decide)) hneg negative
  · obtain ⟨exponent, hexponent⟩ := Int.eq_ofNat_of_zero_le hnonneg
    have hmul : exponent ≤ 308 ∧ ((ofInt (digitsValue (x.shortest .even).digits)).mul
        (powerOfTen exponent)).isFinite = true := by
      by_cases hlarge : x.magnitude + 3 < Binary64.infinityMagnitude
      · exact isFinite_mul_powerOfTen hx hlarge hexponent
      · rw [Binary64.isFinite, decide_eq_true_eq] at hfinite
        have hmagnitude : Binary64.ofMagnitude x.isNegative (Binary64.infinityMagnitude -
            (Binary64.infinityMagnitude - 1 - x.magnitude + 1)) = x := by
          rw [show Binary64.infinityMagnitude - (Binary64.infinityMagnitude - 1 - x.magnitude + 1) =
            x.magnitude by omega, Binary64.ofMagnitude_magnitude]
        have hlargest := isFinite_mul_powerOfTen_largest x.isNegative
          (Binary64.infinityMagnitude - 1 - x.magnitude) (by omega)
        rw [hmagnitude] at hlargest
        simp only [hexponent, Int.toNat_natCast] at hlargest
        exact ⟨by omega, hlargest.2.2⟩
    obtain ⟨y, hy, hyfinite⟩ := exists_scaleByTen_of_isFinite hmul.1
      (isFinite_ofInt (le_trans hle (powerOfTen_le (by decide)))) hmul.2
    rw [hexponent]
    exact ⟨_, isFinite_sign hyfinite negative, ofScaled_eq hy negative⟩

/-- **The text of a finite number is read as a finite number**, wherever it ends. -/
theorem exists_readNumber_jsonText {x : Binary64} (h : x.isFinite = true) :
    ∃ y : Binary64, y.isFinite = true ∧ ∀ rest, EndsNumber rest →
      readNumber (x.jsonText ++ rest) = some (real y, rest) := by
  cases hzero : x.isZero with
  | true =>
    have htext : x.jsonText = signText x.isNegative (['0'] ++ '.' :: ['0']) := by
      simp [Binary64.jsonText, h, hzero, Binary64.signed, signText]
    obtain ⟨y, hfinite, hy⟩ := @exists_ofScaled_of_neg 0 (by decide) (-1) (by decide) x.isNegative
    refine ⟨y, hfinite, fun rest hrest => ?_⟩
    rw [htext, readNumber_point rfl (by simp) (by decide) (by decide) hrest]
    exact congrArg (fun json => some (json, rest)) hy
  | false =>
    obtain ⟨hnormal, -, hle, -⟩ := Binary64.shortest_spec hzero .even
    have hlimit := le_trans hle (by decide : 10 ^ 17 ≤ wordLimit)
    by_cases hplace : -5 < (x.shortest .even).point ∧ (x.shortest .even).point ≤ 16
    · -- A fraction is always written, so that the exponent of what is read is negative.
      have htext : x.jsonText = signText x.isNegative ((x.shortest .even).positional ++
          if (x.shortest .even).isWhole then ['.', '0'] else []) := by
        simp only [Binary64.jsonText, h, hzero, hplace]
        rfl
      obtain ⟨zeros, hneg, hzeros, hread⟩ :=
        readNumber_positional hnormal hplace.2 hlimit x.isNegative
      obtain ⟨y, hfinite, hy⟩ := exists_ofScaled_of_neg hzeros hneg x.isNegative
      refine ⟨y, hfinite, fun rest hrest => ?_⟩
      rw [htext, hread rest hrest, hy]
    · have htext : x.jsonText = signText x.isNegative (x.shortest .even).scientific := by
        simp only [Binary64.jsonText, h, hzero, hplace]
        rfl
      obtain ⟨y, hfinite, hy⟩ := exists_ofScaled_shortest h hzero x.isNegative
      refine ⟨y, hfinite, fun rest hrest => ?_⟩
      rw [htext, readNumber_scientific hnormal hlimit hrest, hy]

end Json

namespace Binary64

/-- **What the text of a number is read as.** -/
def reread (x : Binary64) : Binary64 :=
  match Json.readNumber x.jsonText with
  | some (.real y, _) => y
  | _ => x

variable {x : Binary64}

/-- The text of a finite number is read as `reread` tells. -/
theorem readNumber_jsonText (h : x.isFinite = true) {rest : List Char}
    (hrest : Json.EndsNumber rest) :
    Json.readNumber (x.jsonText ++ rest) = some (.real x.reread, rest) := by
  obtain ⟨y, -, hread⟩ := Json.exists_readNumber_jsonText h
  have hempty := hread [] nofun
  rw [List.append_nil] at hempty
  rw [hread rest hrest, reread, hempty]

/-- **A finite number is read back as a finite number.** -/
theorem isFinite_reread (h : x.isFinite = true) : x.reread.isFinite = true := by
  obtain ⟨y, hfinite, hread⟩ := Json.exists_readNumber_jsonText h
  have hempty := hread [] nofun
  rw [List.append_nil] at hempty
  rwa [reread, hempty]

end Binary64

end ScreenedQuery
