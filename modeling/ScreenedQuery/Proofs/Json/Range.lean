import ScreenedQuery.Json.Reader
import ScreenedQuery.Proofs.Json.Number
import ScreenedQuery.Proofs.Traversal

/-!
# What JSON texts are read as

Whatever is read from a text has numbers in range: a whole number fits 64 bits, and any other number
is finite. A text with a number beyond is read as a value without a meaning there.

## Main definitions

* `Json.InRange`: the values with all their numbers in range

## Main results

* `Json.inRange_readNumber`: a number that is read is in range
* `Json.inRange_of_parse`: so is every number of the value of a text
-/

namespace ScreenedQuery.Json

open Binary64 (isFinite_neg)

/-- **The values with all their numbers in range**: whole ones fit 64 bits, the others are
finite. -/
inductive InRange : Json → Prop
  | null : InRange null
  | bool (b : Bool) : InRange (bool b)
  | integer {n : Int} (hlow : Int64.minValue.toInt ≤ n) (hhigh : n < UInt64.size) :
      InRange (integer n)
  | real {x : Binary64} (h : x.isFinite = true) : InRange (real x)
  | string (s : String) : InRange (string s)
  | array {items : List Json} (h : ∀ item ∈ items, InRange item) : InRange (array items)
  | object {members : List (String × Json)} (h : ∀ member ∈ members, InRange member.2) :
      InRange (object members)
  | unreadable : InRange unreadable

/-! ## Numbers -/

/-- The digits that are gathered fit 64 bits. -/
theorem gatherWhole_le (digits : List Char) : (gatherWhole digits).1 ≤ wordLimit := by
  induction digits using List.reverseRecOn with
  | nil => exact Nat.zero_le _
  | append_singleton digits c ih =>
    unfold gatherWhole at ih ⊢
    rw [List.foldl_append, List.foldl_cons, List.foldl_nil]
    dsimp only
    -- A digit is taken only when the longer number still fits.
    split
    · rename_i hlonger
      exact hlonger.2
    · exact ih

/-- So do those of a fraction behind them. -/
theorem gatherFraction_le {significand : Nat} (h : significand ≤ wordLimit) (digits : List Char) :
    (gatherFraction significand digits).1 ≤ wordLimit := by
  induction digits generalizing significand with
  | nil => exact h
  | cons c digits ih =>
    unfold gatherFraction
    dsimp only
    split
    · rename_i hlonger
      exact ih hlonger
    · exact h

/-- **What is scaled stays finite**, or it is given up. -/
theorem isFinite_scaleByTen {x y : Binary64} {exponent : Int} (hx : x.isFinite = true)
    (h : scaleByTen x exponent = some y) : y.isFinite = true := by
  rcases Int.lt_or_le exponent 0 with hneg | hnonneg
  · obtain ⟨z, hz, hfinite⟩ := exists_scaleByTen_of_neg hx hneg
    rw [h] at hz
    exact Option.some.inj hz ▸ hfinite
  · rw [scaleByTen, if_neg (by omega), if_neg (by omega)] at h
    split at h
    · exact Option.some.inj h ▸ hx
    · split at h
      · cases h
      · exact (Option.filter_eq_some_iff.mp h).2

theorem inRange_ofScaled {significand : Nat} (h : significand ≤ wordLimit) (negative : Bool)
    (exponent : Int) : InRange (ofScaled negative significand exponent) := by
  unfold ofScaled
  split
  · rename_i x hx
    exact .real (isFinite_sign (isFinite_scaleByTen (isFinite_ofWord h) hx) negative)
  · exact .unreadable

theorem inRange_ofWhole (negative : Bool) (digits : List Char) :
    InRange (ofWhole negative digits) := by
  have hle := gatherWhole_le digits
  have hmin : Int64.minValue.toInt = -9223372036854775808 := by decide
  have hsize : wordLimit < UInt64.size := by decide
  unfold ofWhole
  generalize gatherWhole digits = gathered at hle
  obtain ⟨significand, left⟩ := gathered
  dsimp only at hle ⊢
  split
  · exact inRange_ofScaled hle negative left
  · split
    · exact .integer (by omega) (by omega)
    · split
      · exact .real (isFinite_neg (isFinite_ofWord hle))
      · rename_i hword
        -- What is left is a whole number with a sign.
        rw [not_or, Option.isNone_iff_eq_none] at hword
        obtain ⟨m, hm⟩ := Option.ne_none_iff_exists'.mp hword.2
        have htoInt := Number.toInt_of_int64? hm
        have hlow := Int64.minValue_le_toInt m
        exact .integer (by omega) (by omega)

theorem inRange_ofFraction (negative : Bool) (whole fraction : List Char) (exponent : Int) :
    InRange (ofFraction negative whole fraction exponent) :=
  inRange_ofScaled (gatherFraction_le (gatherWhole_le whole) fraction) negative _

/-- **A number that is read is in range.** -/
theorem inRange_readNumber {text rest : List Char} {json : Json}
    (h : readNumber text = some (json, rest)) : InRange json := by
  unfold readNumber at h
  split at h
  dsimp only at h
  split at h
  · cases h
  · simp only [Option.bind_eq_bind, Option.bind_eq_some_iff] at h
    obtain ⟨⟨fraction, text'⟩, -, ⟨exponent, rest'⟩, -, h⟩ := h
    -- Without a fraction and an exponent the number is whole.
    cases fraction <;> cases exponent <;> cases h
    · exact inRange_ofWhole _ _
    all_goals exact inRange_ofFraction _ _ _ _

/-! ## Values -/

theorem inRange_ofItems (room : Nat) {items : List Json} (h : ∀ item ∈ items, InRange item) :
    InRange (ofItems room items) := by
  unfold ofItems
  split
  · exact .unreadable
  · exact .array h

theorem inRange_ofMembers (room : Nat) {members : List (Option String × Json)}
    (h : ∀ member ∈ members, InRange member.2) : InRange (ofMembers room members) := by
  unfold ofMembers
  split
  · exact .unreadable
  · split
    · rename_i named hnamed
      refine .object fun member hmember => ?_
      obtain ⟨source, hsource, hname⟩ := exists_mem_of_mapM hnamed hmember
      obtain ⟨-, -, rfl⟩ := Option.map_eq_some_iff.mp hname
      exact h source hsource
    · exact .unreadable

/-- What a reader with so many steps reads is in range. -/
structure ReadsInRange (steps : Nat) : Prop where
  value : ∀ {room text json rest}, readValue steps room text = some (json, rest) → InRange json
  items : ∀ {room text items rest}, readItems steps room text = some (items, rest) →
    ∀ item ∈ items, InRange item
  members : ∀ {room text members rest}, readMembers steps room text = some (members, rest) →
    ∀ member ∈ members, InRange member.2

theorem ReadsInRange.readValue_succ {steps : Nat} (ih : ReadsInRange steps) {room : Nat}
    {text rest : List Char} {json : Json}
    (h : readValue (steps + 1) room text = some (json, rest)) : InRange json := by
  unfold readValue at h
  split at h
  · -- First the three words.
    obtain ⟨_, -, hjson⟩ := Option.map_eq_some_iff.mp h
    cases hjson
    exact .null
  · obtain ⟨_, -, hjson⟩ := Option.map_eq_some_iff.mp h
    cases hjson
    exact .bool _
  · obtain ⟨_, -, hjson⟩ := Option.map_eq_some_iff.mp h
    cases hjson
    exact .bool _
  · -- A string without a meaning is a value without a meaning.
    obtain ⟨⟨s, text'⟩, -, hjson⟩ := Option.map_eq_some_iff.mp h
    cases hjson
    cases s with
    | none => exact .unreadable
    | some s => exact .string s
  · -- Arrays and objects that are empty have no part that another reader has read.
    split at h
    · cases h
      exact inRange_ofItems room nofun
    · obtain ⟨⟨items, text'⟩, hitems, hjson⟩ := Option.map_eq_some_iff.mp h
      cases hjson
      exact inRange_ofItems room (ih.items hitems)
  · split at h
    · cases h
      exact inRange_ofMembers room nofun
    · obtain ⟨⟨members, text'⟩, hmembers, hjson⟩ := Option.map_eq_some_iff.mp h
      cases hjson
      exact inRange_ofMembers room (ih.members hmembers)
  · exact inRange_readNumber h

theorem ReadsInRange.readItems_succ {steps : Nat} (ih : ReadsInRange steps) {room : Nat}
    {text rest : List Char} {items : List Json}
    (h : readItems (steps + 1) room text = some (items, rest)) : ∀ item ∈ items, InRange item := by
  unfold readItems at h
  simp only [Option.bind_eq_bind, Option.bind_eq_some_iff] at h
  obtain ⟨⟨first, text'⟩, hfirst, h⟩ := h
  dsimp only at h
  split at h
  · cases h
    exact List.forall_mem_singleton.mpr (ih.value hfirst)
  · simp only [Option.bind_eq_some_iff] at h
    obtain ⟨⟨others, text''⟩, hothers, h⟩ := h
    cases h
    exact List.forall_mem_cons.mpr ⟨ih.value hfirst, ih.items hothers⟩
  · cases h

theorem ReadsInRange.readMembers_succ {steps : Nat} (ih : ReadsInRange steps) {room : Nat}
    {text rest : List Char} {members : List (Option String × Json)}
    (h : readMembers (steps + 1) room text = some (members, rest)) :
    ∀ member ∈ members, InRange member.2 := by
  unfold readMembers at h
  split at h
  · simp only [Option.bind_eq_bind, Option.bind_eq_some_iff] at h
    obtain ⟨⟨name, text'⟩, -, h⟩ := h
    dsimp only at h
    split at h
    · simp only [Option.bind_eq_some_iff] at h
      obtain ⟨⟨value, text''⟩, hvalue, h⟩ := h
      dsimp only at h
      split at h
      · cases h
        exact List.forall_mem_singleton.mpr (ih.value hvalue)
      · simp only [Option.bind_eq_some_iff] at h
        obtain ⟨⟨others, text'''⟩, hothers, h⟩ := h
        cases h
        exact List.forall_mem_cons.mpr ⟨ih.value hvalue, ih.members hothers⟩
      · cases h
    · cases h
  · cases h

-- The induction is on the steps: the parts of what is read are read with one step less.
theorem readsInRange (steps : Nat) : ReadsInRange steps := by
  induction steps with
  | zero => exact ⟨nofun, nofun, nofun⟩
  | succ steps ih => exact ⟨ih.readValue_succ, ih.readItems_succ, ih.readMembers_succ⟩

/-- **The value of a text is in range.** -/
theorem inRange_of_parse {text : String} {json : Json} (h : parse text = some json) :
    InRange json := by
  unfold parse at h
  dsimp only at h
  split at h
  · rename_i hread
    obtain ⟨-, h⟩ := Option.ite_none_right_eq_some.mp h
    exact Option.some.inj h ▸ (readsInRange _).value hread
  · cases h

end ScreenedQuery.Json
