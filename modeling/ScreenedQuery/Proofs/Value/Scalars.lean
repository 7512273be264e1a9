import ScreenedQuery.CommandLine.FragmentFile
import ScreenedQuery.Proofs.Draft.History
import ScreenedQuery.Proofs.Json.RoundTrip
import ScreenedQuery.Proofs.Number.Order
import ScreenedQuery.Proofs.Value.Encoding

/-!
# Numbers taken as values

A plain JSON number becomes a value. Whole numbers of 64 bits with a sign and the numbers that are
not whole stay what they are. A whole number beyond the signed range becomes the nearest float,
which is another number unless `2¹¹` divides it. No number is refused, also where a value for it
does not exist.

## Main definitions

* `Json.rational?`, `Value.rational?`: the number that stands in JSON, and the one of a value
* `Json.IsBetweenFloats`: the numbers for which there is no value
* `Value.Renders`: a value is the one for a number

## Main results

* `Value.exists_ofScalar`: every number becomes a value, and which of them stay the same
* `Json.IsBetweenFloats.ne`: the others are the value of nothing
* `FragmentFile.numbers_rendered`: what the filters of a fragment file compare with
-/

namespace ScreenedQuery

/-! ## Numbers and what they denote -/

/-- **The number that stands in JSON.** -/
def Json.rational? : Json → Option ℚ
  | integer n => some n
  | real x => some x.toRat
  | _ => none

/-- **The number that a value is.** -/
def Value.rational? : Value → Option ℚ
  | int n => some n.toInt
  | float x => if x.isFinite then some x.toRat else none
  | _ => none

/-- **A whole number between two floats**, beyond the integers of 64 bits with a sign. -/
def Json.IsBetweenFloats : Json → Prop
  | integer n => Int64.maxValue.toInt < n ∧ ¬(2 ^ 11 : Int) ∣ n
  | _ => False

/-- **The value is the one for a JSON number**: a number, and the same one unless it stands between
two floats. -/
def Value.Renders (json : Json) (value : Value) : Prop :=
  ∀ q, json.rational? = some q → ∃ r, value.rational? = some r ∧ (r = q ↔ ¬json.IsBetweenFloats)

theorem Json.not_isBetweenFloats_of_int64? {n : Int} {m : Int64} (h : Number.int64? n = some m) :
    ¬(integer n).IsBetweenFloats := by
  rintro ⟨hlarge, -⟩
  have hle := Int64.toInt_le m
  rw [Number.toInt_of_int64? h] at hle
  omega

/-- **A whole number of 64 bits becomes the integer, or else the nearest float.** -/
theorem Value.renders_integer {n : Int} (hlow : Int64.minValue.toInt ≤ n)
    (hhigh : n < UInt64.size) :
    Renders (.integer n) (((Number.int64? n).map int).getD (float (Binary64.ofInt n))) := by
  rintro q hq
  obtain rfl := Option.some.inj hq
  have hmax : Int64.maxValue.toInt = 9223372036854775807 := by decide
  have hsize : (UInt64.size : Int) = 18446744073709551616 := rfl
  cases hword : Number.int64? n with
  | some m =>
    have htoInt := Number.toInt_of_int64? hword
    refine ⟨n, congrArg (fun k : Int => some (k : ℚ)) htoInt, ?_⟩
    simp [Json.not_isBetweenFloats_of_int64? hword]
  | none =>
    have hlarge : Int64.maxValue.toInt < n := by
      by_contra hsmall
      exact nomatch hword.symm.trans (if_pos ⟨hlow, by omega⟩)
    have hfinite : (Binary64.ofInt n).isFinite = true :=
      (Json.InRange.integer hlow hhigh).isFinite_toFloat? rfl
    obtain ⟨k, rfl⟩ := Int.eq_ofNat_of_zero_le (by omega : 0 ≤ n)
    refine ⟨(Binary64.ofInt k).toRat, if_pos hfinite, ?_⟩
    rw [Int.cast_natCast, Binary64.toRat_ofInt_eq_iff_dvd (by omega) (by omega)]
    simp only [Json.IsBetweenFloats, hlarge, true_and, not_not]
    omega

/-- **Every number becomes a value**, which is the one for it. -/
theorem Value.exists_ofScalar {json : Json} (h : json.InRange) {q : ℚ}
    (hq : json.rational? = some q) :
    ∃ value, ofScalar json = .ok value ∧ Renders json value := by
  cases h with
  | integer hlow hhigh => exact ⟨_, rfl, renders_integer hlow hhigh⟩
  | real hfinite =>
    refine ⟨_, rfl, fun q hq => ⟨q, (if_pos hfinite).trans hq, ?_⟩⟩
    simp [Json.IsBetweenFloats]
  | _ => cases hq

/-- A number between two floats is the value of nothing. -/
theorem Json.IsBetweenFloats.ne {json : Json} (h : json.IsBetweenFloats) (hrange : json.InRange)
    (value : Value) : value.rational? ≠ json.rational? := by
  cases hrange with
  | @integer n hlow hhigh =>
    obtain ⟨hlarge, hdvd⟩ := h
    have hmax : Int64.maxValue.toInt = 9223372036854775807 := by decide
    cases value with
    | int m =>
      intro hsame
      have heq : m.toInt = n := by simpa [Value.rational?, Json.rational?] using hsame
      have hle := Int64.toInt_le m
      omega
    | float x =>
      intro hsame
      obtain ⟨k, rfl⟩ := Int.eq_ofNat_of_zero_le (by omega : 0 ≤ n)
      obtain ⟨-, hx⟩ := Option.ite_none_right_eq_some.mp hsame
      have hk := Binary64.dvd_of_toRat_eq (n := k) (by omega) (by simpa using hx)
      omega
    | _ => exact nofun
  | _ => exact absurd h id

/-! ## Fragment files -/

namespace FragmentFile

/-- The fields of the filter of an entry. -/
def Entry.fields : Entry → Fields
  | structured _ fields => fields
  | find _ fields => fields
  | _ => .empty

/-- Fields that are read are in range. -/
theorem inRange_of_toFields? {json : Json} (h : json.InRange) {fields : Fields}
    (hread : toFields? json = some fields) : ∀ entry ∈ fields.entries, entry.2.InRange := by
  intro entry hentry
  cases h with
  | object hmembers =>
    obtain ⟨-, hfields⟩ := Option.ite_none_right_eq_some.mp hread
    cases hfields
    exact hmembers entry (FieldMap.mem_of_mem_ofList hentry)
  | _ => cases hread

/-- So are the fields of an entry. -/
theorem inRange_of_toEntry? {json : Json} (h : json.InRange) {entry : Entry}
    (hread : toEntry? json = some entry) : ∀ field ∈ entry.fields.entries, field.2.InRange := by
  unfold toEntry? at hread
  split at hread
  · rename_i name content
    have hcontent : content.InRange := by
      cases h with
      | object hmembers => exact hmembers _ List.mem_cons_self
    split at hread
    case h_7 =>
      -- A target may come without a filter.
      simp only [toFind?, Option.bind_eq_bind, Option.bind_eq_some_iff] at hread
      obtain ⟨parts, hparts, target, -, fields, hfields, hread⟩ := hread
      cases hread
      unfold Json.optional at hfields
      split at hfields
      · cases hfields
        exact nofun
      · rename_i found hfound
        exact inRange_of_toFields? (hcontent.parts? hparts _ (mem_of_lookup hfound)) hfields
    case h_8 =>
      obtain ⟨-, hread⟩ := Option.ite_none_right_eq_some.mp hread
      cases hread
      exact nofun
    case h_9 => cases hread
    case h_1 | h_3 | h_5 =>
      obtain ⟨fields, hfields, rfl⟩ := Option.map_eq_some_iff.mp hread
      exact inRange_of_toFields? hcontent hfields
    all_goals
      -- A raw filter has no fields.
      obtain ⟨filter, -, rfl⟩ := Option.map_eq_some_iff.mp hread
      exact nofun
  · cases hread

theorem inRange_of_parse {text : String} {entries : List Entry} (h : parse text = some entries) :
    ∀ entry ∈ entries, ∀ field ∈ entry.fields.entries, field.2.InRange := by
  intro entry hentry
  obtain ⟨json, hjson, hread⟩ := Option.bind_eq_some_iff.mp h
  obtain ⟨item, hitem, hread⟩ :=
    (Json.inRange_of_parse hjson).exists_mem_of_toList? hread hentry
  exact inRange_of_toEntry? hitem hread

theorem toValue_eq_ok {entry : String × Json} {pair : String × Value}
    (h : toValue entry = .ok pair) : entry.1 = pair.1 ∧ Value.ofScalar entry.2 = .ok pair.2 := by
  unfold toValue at h
  split at h
  · rename_i value hvalue
    obtain rfl := Except.ok.inj h
    exact ⟨rfl, hvalue⟩
  · cases h

/-- **A filter has a value for every field as written.** -/
theorem get?_of_toFilter {fields : Fields} {filter : Filter} (h : toFilter fields = .ok filter)
    {field : String} {json : Json} (hfield : fields.get? field = some json) :
    ∃ value, filter.get? field = some value ∧ Value.ofScalar json = .ok value := by
  unfold toFilter at h
  cases hpairs : fields.entries.mapM toValue with
  | error bad => exact nomatch hpairs ▸ h
  | ok pairs =>
    rw [hpairs] at h
    obtain rfl := Except.ok.inj h
    have hvalues := (mapM_eq_ok_iff.mp hpairs).imp fun _ _ => toValue_eq_ok
    -- The fields are those of a map, so that none is listed twice.
    have hkeys : pairs.map (·.1) = fields.keys := by
      rw [FieldMap.keys, ← List.forall₂_eq_eq_eq, List.forall₂_map_left_iff,
        List.forall₂_map_right_iff]
      exact hvalues.flip.imp fun _ _ hpair => hpair.1.symm
    have hnodup : (pairs.map (·.1)).Nodup :=
      hkeys ▸ fields.keys_nodup
    obtain ⟨i, hi, hentry⟩ := List.getElem_of_mem (mem_of_lookup hfield)
    have hlength := hvalues.length_eq
    have hpair := hvalues.get hi (hlength ▸ hi)
    simp only [List.get_eq_getElem, hentry] at hpair
    refine ⟨(pairs.get ⟨i, hlength ▸ hi⟩).2, FieldMap.get?_ofList_of_mem hnodup ?_, hpair.2⟩
    rw [hpair.1]
    exact List.getElem_mem _

theorem toFilter_of_toFragment {buffer : Nat} {entry : Entry} {fragment : Fragment}
    (h : entry.toFragment buffer = .ok fragment) : toFilter entry.fields = .ok fragment.filter := by
  unfold Entry.toFragment at h
  split at h
  case h_1 link fields =>
    cases hfilter : toFilter fields with
    | error bad => exact nomatch hfilter ▸ h
    | ok filter =>
      rw [hfilter] at h
      obtain rfl := Except.ok.inj h
      exact hfilter
  case h_3 target fields =>
    cases hfilter : toFilter fields with
    | error bad => exact nomatch hfilter ▸ h
    | ok filter =>
      rw [hfilter] at h
      obtain rfl := Except.ok.inj h
      exact hfilter
  all_goals
    obtain rfl := Except.ok.inj h
    rfl

/-- The fragments are those of the entries, one by one. -/
theorem forall₂_of_fragmentsFrom {first : Nat} {entries : List Entry} {found : List Fragment}
    (h : fragmentsFrom first entries = .ok found) :
    List.Forall₂ (fun entry fragment => ∃ buffer, entry.toFragment buffer = .ok fragment)
      entries found := by
  induction entries generalizing first found with
  | nil =>
    obtain rfl := Except.ok.inj h
    exact .nil
  | cons entry entries ih =>
    rw [fragmentsFrom] at h
    split at h <;> try cases h
    rename_i fragment rest hfragment hrest
    exact .cons ⟨first, hfragment⟩ (ih hrest)

/-- **A number in JSON and in fragment files.** There is a value for it, none is refused.

* This is the value that the number becomes. It denotes another number exactly if the number stands
  between two floats.
* A whole number is read from its text as it is.
* A fragment file gives fields no numbers out of range, and the filters made of it have this value
  wherever the number stands. -/
theorem numbers_rendered {json : Json} {q : ℚ} (hrange : json.InRange)
    (hq : json.rational? = some q) :
    ∃ value, Value.ofScalar json = .ok value ∧ value.Renders json ∧
      (∀ n, json = .integer n → Json.parse (String.ofList (Json.wholeText n)) = some json) ∧
      ∀ (text : String) (entries : List Entry) (found : List Fragment),
        parse text = some entries → fragments entries = .ok found →
        List.Forall₂ (fun entry fragment => ∀ field,
          (∀ other, entry.fields.get? field = some other → other.InRange) ∧
            (entry.fields.get? field = some json → fragment.filter.get? field = some value))
          entries found := by
  obtain ⟨value, hvalue, hrenders⟩ := Value.exists_ofScalar hrange hq
  refine ⟨value, hvalue, hrenders, ?_, fun text entries found hparse hfound => ?_⟩
  · rintro n rfl
    cases hrange with
    | integer hlow hhigh => exact @Json.parse_compact (.integer n) ⟨hlow, hhigh⟩
  · have hranges := inRange_of_parse hparse
    refine ((List.forall₂_and_left _ _).mpr ⟨hranges, forall₂_of_fragmentsFrom hfound⟩).imp ?_
    rintro entry fragment ⟨hentry, buffer, hfragment⟩ field
    refine ⟨fun other hother => hentry _ (mem_of_lookup hother), fun hfield => ?_⟩
    obtain ⟨other, hother, hscalar⟩ := get?_of_toFilter (toFilter_of_toFragment hfragment) hfield
    obtain rfl := Except.ok.inj (hscalar.symm.trans hvalue)
    exact hother

/-- The least number beyond the signed range is a float. -/
theorem numbers_rendered_float :
    (Json.integer 9223372036854775808).InRange ∧
      ¬(Json.integer 9223372036854775808).IsBetweenFloats ∧
      ∃ value, Value.ofScalar (.integer 9223372036854775808) = .ok value ∧
        value.rational? = some 9223372036854775808 := by
  have hrange : (Json.integer 9223372036854775808).InRange := .integer (by decide) (by decide)
  have hfloat : ¬(Json.integer 9223372036854775808).IsBetweenFloats := by
    rintro ⟨-, hdvd⟩
    exact hdvd ⟨4503599627370496, by decide⟩
  obtain ⟨value, hvalue, hrenders, -⟩ := @numbers_rendered _ 9223372036854775808 hrange rfl
  obtain ⟨r, hr, heq⟩ := hrenders 9223372036854775808 rfl
  exact ⟨hrange, hfloat, value, hvalue, hr.trans (congrArg some (heq.mpr hfloat))⟩

/-- **The number behind it is compared as another one.** It fits 64 bits, it is not refused, and
the filter of a fragment file has the float in front of it. -/
theorem numbers_rendered_rounded :
    let json := Json.integer 9223372036854775809
    let rounded := Value.float ⟨0x43e0000000000000⟩
    let compared (text : String) : Option (List (List (String × Value))) :=
      (parse text).bind fun entries => (fragments entries).toOption.map fun found =>
        found.map fun fragment => fragment.filter.entries
    json.InRange ∧ json.rational? = some 9223372036854775809 ∧
      Value.ofScalar json = .ok rounded ∧ rounded.rational? = some 9223372036854775808 ∧
      compared "[\x7b\"where\": \x7b\"id\": 9223372036854775809\x7d\x7d]" =
        some [[("id", rounded)]] := by
  intro json rounded compared
  have hrange : json.InRange := .integer (by decide) (by decide)
  have hrounded : rounded = .float (Binary64.ofInt 9223372036854775808) := by decide +kernel
  have hdenotes : (Binary64.ofInt 9223372036854775808).toRat = 9223372036854775808 := by
    have hdvd : 2 ^ 11 ∣ 9223372036854775808 := ⟨4503599627370496, by decide⟩
    simpa using
      (Binary64.toRat_ofInt_eq_iff_dvd (n := 9223372036854775808) (by decide) (by decide)).mpr hdvd
  have hfinite : (Binary64.ofInt 9223372036854775808).isFinite = true := by decide +kernel
  refine ⟨hrange, rfl, by decide +kernel, ?_, by decide +kernel⟩
  rw [hrounded, Value.rational?, if_pos hfinite, hdenotes]

end FragmentFile

end ScreenedQuery
