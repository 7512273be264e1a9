import ScreenedQuery.Proofs.Number.Order
import ScreenedQuery.Proofs.Plan.Comparisons

/-!
# Integers and floats in comparisons

An integer is rounded to a float before it is compared with one. The outcome is the order of the two
numbers, unless the rounding makes the integer equal to the float. Such integers are beyond `2⁵³`,
several of them may equal one float, and then equality is not transitive and an equality filter
matches all of them. The strict order is transitive nevertheless.

## Main definitions

* `Binary64.Absorbs`: a float to which another number is rounded

## Main results

* `Value.compare_trans`: the outcomes of comparisons are transitive, one case apart
* `Value.compare_numbers`: when integers and floats compare as numbers
-/

namespace ScreenedQuery

/-- Outcomes of comparisons are transitive. -/
theorem compare_outcome_trans {α : Type} [Ord α] [Std.TransOrd α] {a b c : α} {outcome : Ordering}
    (hab : Ord.compare a b = outcome) (hbc : Ord.compare b c = outcome) :
    Ord.compare a c = outcome := by
  cases outcome with
  | lt => exact Std.TransCmp.lt_trans hab hbc
  | eq => exact Std.TransCmp.eq_trans hab hbc
  | gt => exact Std.TransCmp.gt_trans hab hbc

namespace Binary64

variable {x y z : Binary64}

theorem compare_eq_some_iff {outcome : Ordering} :
    x.compare y = some outcome ↔
      (x.isNaN = false ∧ y.isNaN = false) ∧ Ord.compare x.rank y.rank = outcome := by
  unfold compare
  cases x.isNaN <;> cases y.isNaN <;> simp

theorem compare_trans {outcome : Ordering} (hxy : x.compare y = some outcome)
    (hyz : y.compare z = some outcome) : x.compare z = some outcome := by
  rw [compare_eq_some_iff] at hxy hyz ⊢
  exact ⟨⟨hxy.1.1, hyz.1.2⟩, compare_outcome_trans hxy.2 hyz.2⟩

/-- Equal numbers compare alike. -/
theorem compare_congr (h : x.compare y = some .eq) (z : Binary64) :
    x.compare z = y.compare z := by
  obtain ⟨⟨hx, hy⟩, hrank⟩ := compare_eq_some_iff.mp h
  rw [compare, compare, hx, hy, Std.LawfulEqCmp.compare_eq_iff_eq.mp hrank]

/-! ## Rounded integers -/

theorem natAbs_toInt_le (n : Int64) : n.toInt.natAbs ≤ 10 ^ 308 := by
  have hlow := Int64.le_toInt n
  have hhigh := Int64.toInt_lt n
  have hrange : 2 ^ 63 ≤ 10 ^ 308 := by decide +kernel
  omega

theorem isFinite_ofInt64 (n : Int64) : (ofInt n.toInt).isFinite = true :=
  isFinite_ofInt_of_natAbs_le (natAbs_toInt_le n)

/-- **Rounded integers compare as before, or are equal.** -/
theorem compare_ofInt (m n : Int64) :
    (ofInt m.toInt).compare (ofInt n.toInt) = some (Ord.compare m.toInt n.toInt) ∨
      (ofInt m.toInt).compare (ofInt n.toInt) = some .eq := by
  have hmono {m n : Int64} (h : m.toInt ≤ n.toInt) :=
    toRat_ofInt_mono (natAbs_toInt_le m) (natAbs_toInt_le n) h
  rw [compare_eq_toRat (isFinite_ofInt64 m) (isFinite_ofInt64 n)]
  simp only [Option.some.injEq]
  -- Rounding keeps the order, so that less can become equal and nothing else.
  rcases lt_trichotomy m.toInt n.toInt with hlt | heq | hgt
  · rcases (hmono hlt.le).lt_or_eq with hless | hequal
    · exact .inl ((compare_lt_iff_lt.mpr hless).trans (compare_lt_iff_lt.mpr hlt).symm)
    · exact .inr (compare_eq_iff_eq.mpr hequal)
  · exact .inr (compare_eq_iff_eq.mpr (congrArg (fun k => (ofInt k).toRat) heq))
  · rcases (hmono hgt.le).lt_or_eq with hless | hequal
    · exact .inl ((compare_gt_iff_gt.mpr hless).trans (compare_gt_iff_gt.mpr hgt).symm)
    · exact .inr (compare_eq_iff_eq.mpr hequal.symm)

/-- The float is what the integer is rounded to. -/
def IsNearest (x : Binary64) (n : Int64) : Prop :=
  x.isFinite = true ∧ (ofInt n.toInt).toRat = x.toRat

/-- **A float absorbs an integer** that is rounded to it and is another number. -/
def Absorbs (x : Binary64) (n : Int64) : Prop :=
  x.IsNearest n ∧ (n.toInt : ℚ) ≠ x.toRat

variable {m n : Int64}

/-- An integer compares as equal to the float that it is rounded to. -/
theorem compare_ofInt_eq_iff : (ofInt n.toInt).compare x = some .eq ↔ x.IsNearest n := by
  constructor
  · intro h
    have hrank := Std.LawfulEqCmp.compare_eq_iff_eq.mp (compare_eq_some_iff.mp h).2
    -- A number of equal rank has the same magnitude.
    have hfinite : x.isFinite = true := by
      have hofInt := isFinite_ofInt64 n
      unfold isFinite at hofInt ⊢
      rw [decide_eq_true_eq] at hofInt ⊢
      unfold rank at hrank
      split at hrank <;> split at hrank <;> omega
    rw [compare_eq_toRat (isFinite_ofInt64 n) hfinite] at h
    exact ⟨hfinite, compare_eq_iff_eq.mp (Option.some.inj h)⟩
  · rintro ⟨hfinite, hnearest⟩
    rw [compare_eq_toRat (isFinite_ofInt64 n) hfinite, hnearest]
    exact congrArg some (compare_eq_iff_eq.mpr rfl)

/-- **A rounded integer compares with a float as before**, unless it was absorbed. -/
theorem compare_ofInt_toRat (hx : x.isFinite = true) (h : ¬x.Absorbs n) :
    (ofInt n.toInt).compare x = some (Ord.compare (n.toInt : ℚ) x.toRat) := by
  have hfits := natAbs_toInt_le n
  rw [compare_eq_toRat (isFinite_ofInt64 n) hx]
  have hne : (n.toInt : ℚ) ≠ x.toRat → (ofInt n.toInt).toRat ≠ x.toRat :=
    fun hne hnearest => h ⟨⟨hx, hnearest⟩, hne⟩
  refine congrArg some ?_
  -- Rounding stops at the float at the latest, and to stop there is to be absorbed.
  rcases lt_trichotomy (n.toInt : ℚ) x.toRat with hlt | heq | hgt
  · have hless := (toRat_ofInt_le hfits hlt.le).lt_of_ne (hne hlt.ne)
    exact (compare_lt_iff_lt.mpr hless).trans (compare_lt_iff_lt.mpr hlt).symm
  · have hequal := le_antisymm (toRat_ofInt_le hfits heq.le) (le_toRat_ofInt hfits heq.ge)
    exact (compare_eq_iff_eq.mpr hequal).trans (compare_eq_iff_eq.mpr heq).symm
  · have hless := (le_toRat_ofInt hfits hgt.le).lt_of_ne' (hne hgt.ne')
    exact (compare_gt_iff_gt.mpr hless).trans (compare_gt_iff_gt.mpr hgt).symm

/-- Integers up to `2⁵³` are not absorbed. -/
theorem not_absorbs (h : n.toInt.natAbs ≤ 2 ^ 53) : ¬x.Absorbs n := by
  rintro ⟨⟨-, hnearest⟩, hne⟩
  exact hne ((toRat_ofInt_eq h).symm.trans hnearest)

/-- Of two integers with one nearest float, one was absorbed. -/
theorem absorbs_or_absorbs (hm : x.IsNearest m) (hn : x.IsNearest n) (hne : m ≠ n) :
    x.Absorbs m ∨ x.Absorbs n := by
  by_cases hequal : (m.toInt : ℚ) = x.toRat
  · refine .inr ⟨hn, fun h => hne ?_⟩
    exact Int64.toInt_inj.mp (Int.cast_injective (hequal.trans h.symm))
  · exact .inl ⟨hm, hequal⟩

end Binary64

namespace Value

/-! ## Chains of values -/

variable {a b c : Value} {outcome : Ordering}

theorem some_compare_trans {α : Type} [Ord α] [Std.TransOrd α] {a b c : α}
    (hab : some (Ord.compare a b) = some outcome) (hbc : some (Ord.compare b c) = some outcome) :
    some (Ord.compare a c) = some outcome :=
  congrArg some (compare_outcome_trans (Option.some.inj hab) (Option.some.inj hbc))

/-- Two integers, and a number that the first of them is rounded for. -/
theorem compare_int_of_compare {m n : Int64} {x : Binary64}
    (hmn : (int m).compare (int n) = some outcome)
    (hnx : (int n).compare (float x) = some outcome) :
    (int m).compare (float x) = some outcome := by
  rcases Binary64.compare_ofInt m n with h | h
  · exact Binary64.compare_trans (h.trans hmn) hnx
  · -- Rounded, the two integers are one number.
    exact (Binary64.compare_congr h x).trans hnx

theorem compare_swap_some (h : a.compare b = some outcome) :
    b.compare a = some outcome.swap := by
  rw [compare_swap a b, h, Option.map_some]

/-- **The outcomes of comparisons are transitive**, except that two integers may be rounded to one
float. -/
theorem compare_trans (hab : a.compare b = some outcome) (hbc : b.compare c = some outcome)
    (hint : outcome = .eq → ∀ m x n, a = int m → b = float x → c = int n → m = n) :
    a.compare c = some outcome := by
  cases b with
  | null => exact nomatch (compare_null_right a).symm.trans hab
  | bool b =>
    cases a with
    | bool a =>
      cases c with
      | bool c => exact some_compare_trans hab hbc
      | _ => exact nomatch hbc
    | _ => exact nomatch hab
  | string b =>
    cases a with
    | string a =>
      cases c with
      | string c => exact some_compare_trans hab hbc
      | _ => exact nomatch hbc
    | _ => exact nomatch hab
  | bytes b =>
    cases a with
    | bytes a =>
      cases c with
      | bytes c => exact some_compare_trans hab hbc
      | _ => exact nomatch hbc
    | _ => exact nomatch hab
  | int b =>
    cases a with
    | int a =>
      cases c with
      | int c => exact some_compare_trans hab hbc
      | float c => exact compare_int_of_compare hab hbc
      | _ => exact nomatch hbc
    | float a =>
      cases c with
      | int c =>
        -- Read from the other end, it is two integers and a float.
        have h := compare_int_of_compare (compare_swap_some hbc) (compare_swap_some hab)
        rw [compare_swap (int c) (float a), h, Option.map_some, Ordering.swap_swap]
      | float c => exact Binary64.compare_trans hab hbc
      | _ => exact nomatch hbc
    | _ => exact nomatch hab
  | float b =>
    cases a with
    | int a =>
      cases c with
      | int c =>
        -- Rounded, the two integers compare as with the float between them.
        rcases Binary64.compare_ofInt a c with h | h
        · exact h.symm.trans (Binary64.compare_trans hab hbc)
        · have houtcome := Option.some.inj (h.symm.trans (Binary64.compare_trans hab hbc))
          obtain rfl := hint houtcome.symm a b c rfl rfl rfl
          exact congrArg some (Std.ReflCmp.compare_self.trans houtcome)
      | float c => exact Binary64.compare_trans hab hbc
      | _ => exact nomatch hbc
    | float a =>
      cases c with
      | int c => exact Binary64.compare_trans hab hbc
      | float c => exact Binary64.compare_trans hab hbc
      | _ => exact nomatch hbc
    | _ => exact nomatch hab

theorem int_compare_int_eq_iff {m n : Int64} : (int m).compare (int n) = some .eq ↔ m = n :=
  (compare_eq_some_eq_iff (a := int m) (b := int n) nofun id).trans beq_iff_eq

/-- A stored integer is equal to itself and to the float that it is rounded to. -/
theorem eq_holds_int_iff {n : Int64} {literal : Value} :
    Comparison.eq.holds (some (int n)) literal = true ↔
      literal = int n ∨ ∃ x, literal = float x ∧ x.IsNearest n := by
  have hholds : Comparison.eq.holds (some (int n)) literal = true ↔
      (int n).compare literal = some .eq := by
    rw [Comparison.holds_eq, Option.getD_some, if_neg fun h => nomatch h.1]
    exact Comparison.admits_ofOrdering_iff .eq _
  rw [hholds]
  cases literal with
  | int k =>
    rw [int_compare_int_eq_iff]
    simp [eq_comm]
  | float x =>
    refine Binary64.compare_ofInt_eq_iff.trans ?_
    simp
  | _ => exact iff_of_false nofun (by simp)

/-- An integer and a float compare as numbers exactly if the integer is not absorbed. -/
theorem compare_iff_not_absorbs {n : Int64} {x : Binary64} (hx : x.isFinite = true) :
    (int n).compare (float x) = some (Ord.compare (n.toInt : ℚ) x.toRat) ∧
        (float x).compare (int n) = some (Ord.compare x.toRat (n.toInt : ℚ)) ↔
      ¬x.Absorbs n := by
  constructor
  · -- An absorbed integer compares as equal, which is not the order of the numbers.
    rintro ⟨hcompare, -⟩ ⟨hnearest, hne⟩
    have hequal := Binary64.compare_ofInt_eq_iff.mpr hnearest
    exact hne (compare_eq_iff_eq.mp (Option.some.inj (hcompare.symm.trans hequal)))
  · intro habsorbs
    have hcompare : (int n).compare (float x) = some (Ord.compare (n.toInt : ℚ) x.toRat) :=
      Binary64.compare_ofInt_toRat hx habsorbs
    refine ⟨hcompare, ?_⟩
    rw [compare_swap (int n) (float x), hcompare, Option.map_some]
    exact congrArg some Std.OrientedOrd.eq_swap.symm

/-- Two different stored integers are equal to the literals that both are rounded to. -/
theorem eq_holds_both_iff {m n : Int64} (hne : m ≠ n) {literal : Value} :
    Comparison.eq.holds (some (int m)) literal = true ∧
        Comparison.eq.holds (some (int n)) literal = true ↔
      ∃ x, literal = float x ∧ x.IsNearest m ∧ x.IsNearest n ∧ (x.Absorbs m ∨ x.Absorbs n) := by
  rw [eq_holds_int_iff, eq_holds_int_iff]
  constructor
  · rintro ⟨rfl | ⟨x, rfl, hm⟩, hn⟩
    · rcases hn with hn | ⟨x, hn, -⟩
      · exact absurd (int.inj hn) hne
      · exact nomatch hn
    · rcases hn with hn | ⟨y, hy, hn⟩
      · exact nomatch hn
      · obtain rfl := float.inj hy
        exact ⟨x, rfl, hm, hn, Binary64.absorbs_or_absorbs hm hn hne⟩
  · rintro ⟨x, rfl, hm, hn, -⟩
    exact ⟨.inr ⟨x, rfl, hm⟩, .inr ⟨x, rfl, hn⟩⟩

/-- **Integers and floats as numbers.** Take an integer and a finite float.

* The two compare, either way round, as the numbers they denote exactly if the float does not absorb
  the integer; otherwise they compare as equal. Integers up to `2⁵³` are not absorbed.
* Over all values, what compares as less does so transitively.
* What compares as equal does so transitively too, except that a float may stand between two
  different integers.
* An equality filter matches the integer and another one exactly if its literal is the float that
  both are rounded to, and then it absorbs one of them. -/
theorem compare_numbers (n : Int64) {x : Binary64} (hx : x.isFinite = true) :
    ((int n).compare (float x) = some (Ord.compare (n.toInt : ℚ) x.toRat) ∧
        (float x).compare (int n) = some (Ord.compare x.toRat (n.toInt : ℚ)) ↔
      ¬x.Absorbs n) ∧
    (x.Absorbs n → (int n).compare (float x) = some .eq ∧ (float x).compare (int n) = some .eq) ∧
    (n.toInt.natAbs ≤ 2 ^ 53 → ¬x.Absorbs n) ∧
    (∀ a b c : Value, a.compare b = some .lt → b.compare c = some .lt →
      a.compare c = some .lt) ∧
    (∀ a b c : Value, a.compare b = some .eq → b.compare c = some .eq →
      (a.compare c = some .eq ↔ ∀ k y m, a = int k → b = float y → c = int m → k = m)) ∧
    ∀ (m : Int64) (literal : Value), m ≠ n →
      (Comparison.eq.holds (some (int m)) literal = true ∧
          Comparison.eq.holds (some (int n)) literal = true ↔
        ∃ y, literal = float y ∧ y.IsNearest m ∧ y.IsNearest n ∧
          (y.Absorbs m ∨ y.Absorbs n)) := by
  refine ⟨compare_iff_not_absorbs hx, ?_, Binary64.not_absorbs, ?_, ?_, ?_⟩
  · intro habsorbs
    have hcompare : (int n).compare (float x) = some .eq :=
      Binary64.compare_ofInt_eq_iff.mpr habsorbs.1
    exact ⟨hcompare, compare_swap_some hcompare⟩
  · intro a b c hab hbc
    exact compare_trans hab hbc nofun
  · intro a b c hab hbc
    refine ⟨?_, fun hint => compare_trans hab hbc fun _ => hint⟩
    rintro hac k y m rfl rfl rfl
    exact int_compare_int_eq_iff.mp hac
  · intro m literal hne
    exact eq_holds_both_iff hne

/-- The numbers 2, 2.5 and 3, and two integers that a filter on `2⁵³` does not tell apart. -/
theorem compare_numbers_small :
    let half : Binary64 := ⟨0x4004000000000000⟩
    let large : Binary64 := ⟨0x4340000000000000⟩
    ((int 3).compare (float half) = some (Ord.compare (Int64.toInt 3 : ℚ) half.toRat) ∧
        (float half).compare (int 3) = some (Ord.compare half.toRat (Int64.toInt 3 : ℚ))) ∧
      (int 2).compare (int 3) = some .lt ∧
      (float (.ofInt 3)).compare (float (.ofInt 3)) = some .eq ∧
      ∃ x, float large = float x ∧ x.IsNearest 9007199254740992 ∧
        x.IsNearest 9007199254740993 ∧
        (x.Absorbs 9007199254740992 ∨ x.Absorbs 9007199254740993) := by
  intro half large
  have hhalf : half.isFinite = true := by decide
  obtain ⟨hexact, -, habsorbs, hless, hequal, -⟩ := compare_numbers 3 hhalf
  obtain ⟨-, -, -, -, -, hfilter⟩ := compare_numbers 9007199254740993 hhalf
  refine ⟨hexact.mpr (habsorbs (by decide)), ?_, ?_, ?_⟩
  · exact hless (int 2) (float half) (int 3) (by decide +kernel) (by decide +kernel)
  · refine (hequal (float (.ofInt 3)) (int 3) (float (.ofInt 3)) (by decide +kernel)
      (by decide +kernel)).mpr ?_
    exact nofun
  · exact (hfilter 9007199254740992 (float large) (by decide)).mp
      ⟨by decide +kernel, by decide +kernel⟩

/-- **The least integer beyond `2⁵³` is not compared as a number**: with the float `2⁵³` it compares
as equal. So does `2⁵³` itself, which is less, and a filter on the float matches both. -/
theorem compare_numbers_rounded :
    let x : Binary64 := ⟨0x4340000000000000⟩
    x.isFinite = true ∧
      (int 9007199254740993).compare (float x) ≠
        some (Ord.compare (Int64.toInt 9007199254740993 : ℚ) x.toRat) ∧
      (float x).compare (int 9007199254740993) ≠
        some (Ord.compare x.toRat (Int64.toInt 9007199254740993 : ℚ)) ∧
      (int 9007199254740992).compare (float x) = some .eq ∧
      (float x).compare (int 9007199254740993) = some .eq ∧
      (int 9007199254740992).compare (int 9007199254740993) = some .lt ∧
      Comparison.eq.holds (some (int 9007199254740992)) (float x) = true ∧
      Comparison.eq.holds (some (int 9007199254740993)) (float x) = true := by
  intro x
  have hfloat : Binary64.ofInt (2 ^ 53) = x := by decide +kernel
  have hrat : x.toRat = ((2 ^ 53 : Int) : ℚ) := by
    rw [← hfloat]
    exact Binary64.toRat_ofInt_eq (by decide)
  have hne : (Int64.toInt 9007199254740993 : ℚ) ≠ x.toRat := by
    rw [hrat]
    exact fun h => absurd (Int.cast_injective h) (by decide)
  have hequal : (int 9007199254740993).compare (float x) = some .eq := by decide +kernel
  have hequal' : (float x).compare (int 9007199254740993) = some .eq := by decide +kernel
  refine ⟨by decide, ?_, ?_, by decide +kernel, hequal', by decide, by decide +kernel,
    by decide +kernel⟩
  · rw [hequal]
    exact fun h => hne (compare_eq_iff_eq.mp (Option.some.inj h).symm)
  · rw [hequal']
    exact fun h => hne (compare_eq_iff_eq.mp (Option.some.inj h).symm).symm

end Value

end ScreenedQuery
