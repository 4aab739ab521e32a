import Mathlib.Algebra.Order.Field.Rat
import Mathlib.Algebra.Order.Ring.Cast
import Mathlib.Tactic.Ring
import CommandOntology.Number.Binary64

set_option autoImplicit false

namespace CommandOntology

namespace Scaled

def value (x : Scaled) : ℚ :=
  x.number * (2 : ℚ) ^ x.exponent

theorem inUnits_mul_two_zpow (x : Scaled) {unit : Int} (h : unit ≤ x.exponent) :
    (x.inUnits unit : ℚ) * (2 : ℚ) ^ unit = x.value := by
  obtain ⟨n, hn⟩ := Int.le.dest h
  have hexponent : (x.exponent - unit).toNat = n := by omega
  have hpower : Nat.pow 2 n = 2 ^ n := rfl
  rw [inUnits, value, hexponent, hpower, ← hn, zpow_add₀ two_ne_zero, zpow_natCast]
  push_cast
  ring

theorem inUnits_lt_iff (x y : Scaled) :
    x.inUnits (min x.exponent y.exponent) < y.inUnits (min x.exponent y.exponent) ↔ x.value < y.value := by
  have hunit : (0 : ℚ) < 2 ^ min x.exponent y.exponent := zpow_pos two_pos _
  rw [← inUnits_mul_two_zpow x (min_le_left _ _), ← inUnits_mul_two_zpow y (min_le_right _ _),
    mul_lt_mul_iff_left₀ hunit, Int.cast_lt]

theorem order_eq_lt_iff (x y : Scaled) : x.order y = .lt ↔ x.value < y.value := by
  rw [← inUnits_lt_iff, order, Int.compare_eq_lt]

theorem order_eq_gt_iff (x y : Scaled) : x.order y = .gt ↔ y.value < x.value := by
  rw [← inUnits_lt_iff, order, Int.compare_eq_gt, min_comm]

theorem order_eq_compare (x y : Scaled) : x.order y = compare x.value y.value := by
  cases h : x.order y with
  | lt => exact (compare_lt_iff_lt.2 ((order_eq_lt_iff x y).1 h)).symm
  | gt => exact (compare_gt_iff_gt.2 ((order_eq_gt_iff x y).1 h)).symm
  | eq =>
    have hlt : ¬x.value < y.value := fun hlt => by simp [(order_eq_lt_iff x y).2 hlt] at h
    have hgt : ¬y.value < x.value := fun hgt => by simp [(order_eq_gt_iff x y).2 hgt] at h
    exact (compare_eq_iff_eq.2 (le_antisymm (not_lt.1 hgt) (not_lt.1 hlt))).symm

end Scaled

namespace Binary64

/-- What is greater than a number is greater than all that are less than it. -/
theorem order?_eq_gt_of_lt {x y z : Binary64} (hxz : x.order? z = some .gt)
    (hyz : y.order? z = some .lt) : x.order? y = some .gt := by
  cases y with
  | nan => cases hyz
  | infinite c =>
    -- Only the least number is less than another one and infinite.
    obtain rfl : c = true := by
      cases z with
      | nan => cases hyz
      | infinite b => revert hyz; cases b <;> cases c <;> decide
      | finite b n f => cases c <;> simp_all [order?]
    cases x with
    | nan => cases hxz
    | infinite a =>
      cases z with
      | nan => cases hyz
      | infinite b => revert hxz hyz; cases a <;> cases b <;> decide
      | finite b n f => cases a <;> first | rfl | cases hxz
    | finite a m e => rfl
  | finite c n f =>
    cases z with
    | nan => cases hyz
    | infinite b =>
      obtain rfl : b = false := by cases b <;> first | rfl | cases hyz
      cases x with
      | nan => cases hxz
      | infinite a => exact absurd (show compare false a = .gt from Option.some.inj hxz) (by decide +revert)
      | finite a m e => cases hxz
    | finite b k g =>
      cases x with
      | nan => cases hxz
      | infinite a => cases a <;> first | rfl | cases hxz
      | finite a m e =>
        simp only [order?, Option.some.injEq, Scaled.order_eq_lt_iff, Scaled.order_eq_gt_iff] at hxz hyz ⊢
        exact hyz.trans hxz

end Binary64

end CommandOntology
