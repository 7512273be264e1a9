import Mathlib.Tactic.ByContra
import Mathlib.Tactic.SplitIfs

/-!
# The order of bytes

Texts are ordered by the code points of their characters. This is the order of the bytes that they
are encoded with.

## Main definitions

* `bytes`: the bytes of a text in UTF-8

## Main results

* `lt_iff_bytes_lt`, `le_iff_bytes_le`: the order of texts is that of their bytes
-/

namespace ScreenedQuery

/-- **The bytes of a text** in UTF-8. -/
def bytes (text : String) : List UInt8 := text.toList.flatMap String.utf8EncodeChar

/-- The first place where two rows differ comes before the end of both, and the first row has the
lesser byte there. -/
def Diverges : List UInt8 → List UInt8 → Prop
  | first :: row, other :: others => first < other ∨ first = other ∧ Diverges row others
  | _, _ => False

theorem Diverges.append_lt {row others : List UInt8} (h : Diverges row others)
    (after after' : List UInt8) : row ++ after < others ++ after' := by
  induction row generalizing others with
  | nil => exact h.elim
  | cons first row ih =>
    cases others with
    | nil => exact h.elim
    | cons other others =>
      rcases h with hlt | ⟨rfl, h⟩
      · exact .rel hlt
      · exact .cons (ih h)

theorem ofNat_lt_iff {a b : Nat} (ha : a < 256) (hb : b < 256) :
    UInt8.ofNat a < UInt8.ofNat b ↔ a < b := by
  simp [UInt8.lt_iff_toNat_lt, Nat.mod_eq_of_lt ha, Nat.mod_eq_of_lt hb]

theorem ofNat_eq_iff {a b : Nat} (ha : a < 256) (hb : b < 256) :
    UInt8.ofNat a = UInt8.ofNat b ↔ a = b := by
  simp [← UInt8.toNat_inj, Nat.mod_eq_of_lt ha, Nat.mod_eq_of_lt hb]

/-- Every character is a code point. -/
theorem toNat_val_lt (c : Char) : c.val.toNat < 1114112 := by
  have hvalid : c.toNat < 0xd800 ∨ 0xdfff < c.toNat ∧ c.toNat < 0x110000 := c.valid
  have htoNat : c.val.toNat = c.toNat := rfl
  omega

/-- **The bytes of a lesser character** diverge from those of a greater one. -/
theorem diverges_of_lt {c d : Char} (h : c < d) :
    Diverges (String.utf8EncodeChar c) (String.utf8EncodeChar d) := by
  have hlt : c.val.toNat < d.val.toNat := h
  have hbound := toNat_val_lt d
  unfold String.utf8EncodeChar
  generalize c.val.toNat = v at hlt
  generalize d.val.toNat = w at hlt hbound
  have hv : v / 64 / 64 = v / 4096 ∧ v / 4096 / 64 = v / 262144 ∧ v / 262144 % 8 = v / 262144 := by
    omega
  have hw : w / 64 / 64 = w / 4096 ∧ w / 4096 / 64 = w / 262144 ∧ w / 262144 % 8 = w / 262144 := by
    omega
  -- A longer row starts with a greater byte, and rows of one length compare as digits do.
  dsimp only
  split_ifs <;>
    simp (disch := omega) only [Diverges, ofNat_lt_iff, ofNat_eq_iff, and_false, or_false] <;>
    omega

theorem bytes_lt_of_lt {first second : List Char} (h : first < second) :
    first.flatMap String.utf8EncodeChar < second.flatMap String.utf8EncodeChar := by
  induction h with
  | @nil c row =>
    rw [List.flatMap_nil, List.flatMap_cons]
    cases hbytes : String.utf8EncodeChar c with
    | nil => exact absurd hbytes String.utf8EncodeChar_ne_nil
    | cons byte rest => exact .nil
  | @cons c row others _ ih =>
    rw [List.flatMap_cons, List.flatMap_cons]
    exact List.append_left_lt ih
  | @rel c d row others hlt =>
    rw [List.flatMap_cons, List.flatMap_cons]
    exact (diverges_of_lt hlt).append_lt _ _

/-- **The order of texts is that of their bytes.** -/
theorem lt_iff_bytes_lt {first second : String} : first < second ↔ bytes first < bytes second := by
  constructor
  · exact fun h => bytes_lt_of_lt h
  · intro h
    by_contra hnot
    have hle : second ≤ first := String.not_lt.mp hnot
    by_cases heq : second = first
    · exact List.lt_irrefl _ (heq ▸ h)
    · have hlt : second < first := by
        by_contra hnot'
        exact heq (String.le_antisymm hle (String.not_lt.mp hnot'))
      exact List.lt_asymm h (bytes_lt_of_lt hlt)

theorem le_iff_bytes_le {first second : String} : first ≤ second ↔ bytes first ≤ bytes second := by
  rw [← String.not_lt, ← List.not_lt, lt_iff_bytes_lt]

end ScreenedQuery
