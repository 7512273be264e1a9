import ScreenedQuery.Value.Basic

/-!
# The order of values

Comparing two values the other way round reverses the outcome. Values that compare as equal are
equal, apart from integers and floats, which are values of two kinds that compare with each other.

## Main definitions

* `Value.AreMixed`: an integer and a float

## Main results

* `Value.compare_swap`: comparing the other way round
* `Value.compare_eq_some_eq_iff`: which values compare as equal
-/

namespace ScreenedQuery

/-- A number is equal to another one if it compares so. -/
theorem Binary64.compare_eq_some_eq_iff {x y : Binary64} :
    x.compare y = some .eq ↔ x.equal y = true :=
  beq_iff_eq.symm

namespace Value

/-- **Comparing the other way round reverses the outcome**, and is undefined together with it. -/
theorem compare_swap (a b : Value) : b.compare a = (a.compare b).map Ordering.swap := by
  cases a with
  | null => simp
  | bool a =>
    cases b with
    | bool b => exact congrArg some Std.OrientedOrd.eq_swap
    | _ => rfl
  | int a =>
    cases b with
    | int b => exact congrArg some Std.OrientedOrd.eq_swap
    | float b => exact Binary64.compare_swap _ b
    | _ => rfl
  | float a =>
    cases b with
    | int b => exact Binary64.compare_swap a _
    | float b => exact Binary64.compare_swap a b
    | _ => rfl
  | string a =>
    cases b with
    | string b => exact congrArg some Std.OrientedOrd.eq_swap
    | _ => rfl
  | bytes a =>
    cases b with
    | bytes b => exact congrArg some Std.OrientedOrd.eq_swap
    | _ => rfl

/-- An integer and a float, in either order: values of two kinds that compare with each other. -/
def AreMixed : Value → Value → Prop
  | int _, float _ | float _, int _ => True
  | _, _ => False

/-- Equal values are of one kind. -/
theorem not_areMixed_of_same {a b : Value} (h : a.same b = true) : ¬AreMixed a b := by
  intro hmixed
  cases a with
  | int a =>
    cases b with
    | float b => exact nomatch h
    | _ => exact hmixed
  | float a =>
    cases b with
    | int b => exact nomatch h
    | _ => exact hmixed
  | _ => exact hmixed

/-- An order of which the outcome is equality is one of equal things. -/
theorem some_compare_eq_iff {α : Type} [Ord α] [Std.LawfulEqOrd α] [BEq α] [LawfulBEq α]
    {a b : α} : some (Ord.compare a b) = some .eq ↔ (a == b) = true := by
  rw [Option.some.injEq, Std.LawfulEqCmp.compare_eq_iff_eq, beq_iff_eq]

/-- **Which values compare as equal**: those that are equal, null apart. -/
theorem compare_eq_some_eq_iff {a b : Value} (hnull : a ≠ null) (hmixed : ¬AreMixed a b) :
    a.compare b = some .eq ↔ a.same b = true := by
  cases a with
  | null => exact absurd rfl hnull
  | bool a =>
    cases b with
    | bool b => exact some_compare_eq_iff
    | _ => exact iff_of_false nofun nofun
  | int a =>
    cases b with
    | int b =>
      change some (Ord.compare a.toInt b.toInt) = some .eq ↔ (a == b) = true
      rw [some_compare_eq_iff, beq_iff_eq, beq_iff_eq, Int64.toInt_inj]
    | float b => exact absurd trivial hmixed
    | _ => exact iff_of_false nofun nofun
  | float a =>
    cases b with
    | int b => exact absurd trivial hmixed
    | float b => exact Binary64.compare_eq_some_eq_iff
    | _ => exact iff_of_false nofun nofun
  | string a =>
    cases b with
    | string b => exact some_compare_eq_iff
    | _ => exact iff_of_false nofun nofun
  | bytes a =>
    cases b with
    | bytes b => exact some_compare_eq_iff
    | _ => exact iff_of_false nofun nofun

end Value

end ScreenedQuery
