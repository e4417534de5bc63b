import CodeAtlas.Number.Shortest
import Mathlib.Algebra.Order.Field.Power
import Mathlib.Algebra.Order.Field.Rat
import Mathlib.Order.Compare
import Mathlib.Tactic.FieldSimp
import Mathlib.Tactic.Linarith
import Mathlib.Tactic.Positivity
import Mathlib.Tactic.Ring

/-!
# Exact values

Doubles and decimals stand for rational numbers, and all comparisons between them are exact. The
numbers that round to a double form an interval around it. The intervals of two doubles have no
number in common, so that a decimal tells the double that it rounds to.
-/

namespace CodeAtlas

theorem zpow_mul_pow_toNat {base : ℚ} (positive : 0 < base) (power : ℤ) :
    base ^ power * base ^ (-power).toNat = base ^ power.toNat := by
  rw [← zpow_natCast, ← zpow_natCast, ← zpow_add₀ positive.ne']
  congr 1
  omega

/-- The mantissas and exponents of doubles other than zero: a leading bit is left out only where
the exponent is the least one. -/
structure Dyadic.IsDouble (dyadic : Dyadic) : Prop where
  /-- The double is not zero. -/
  pos : 0 < dyadic.mantissa
  /-- The mantissa has no more than fifty-three bits. -/
  lt : dyadic.mantissa < 2 * Dyadic.leadingBit
  /-- The exponent is at least that of the least double. -/
  least : -1074 ≤ dyadic.exponent
  /-- The exponent is at most that of the greatest double. -/
  greatest : dyadic.exponent ≤ 972
  /-- The leading bit is there or the exponent is the least one. -/
  leading : dyadic.exponent = -1074 ∨ Dyadic.leadingBit ≤ dyadic.mantissa

namespace Decimal

/-- The number that a decimal stands for. -/
def value (decimal : Decimal) : ℚ := decimal.digits * 10 ^ decimal.exponent

theorem compareScaled_eq (left : Nat) (binary : ℤ) (right : Nat) (decimal : ℤ) :
    compareScaled left binary right decimal =
      compare ((left : ℚ) * 2 ^ binary) (right * 10 ^ decimal) := by
  have scale : (0 : ℚ) < 2 ^ (-binary).toNat * 10 ^ (-decimal).toNat := by positivity
  have scaledLeft : (left : ℚ) * 2 ^ binary * (2 ^ (-binary).toNat * 10 ^ (-decimal).toNat) =
      (left * Nat.pow 2 binary.toNat * Nat.pow 10 (-decimal).toNat : Nat) := by
    push_cast [Nat.pow_eq]
    rw [← zpow_mul_pow_toNat two_pos binary]
    ring
  have scaledRight : (right : ℚ) * 10 ^ decimal * (2 ^ (-binary).toNat * 10 ^ (-decimal).toNat) =
      (right * Nat.pow 10 decimal.toNat * Nat.pow 2 (-binary).toNat : Nat) := by
    push_cast [Nat.pow_eq]
    rw [← zpow_mul_pow_toNat (show (0 : ℚ) < 10 by norm_num) decimal]
    ring
  rw [compareScaled, ← cmp_eq_compare, ← cmp_eq_compare, ← cmp_mul_pos_right scale, scaledLeft,
    scaledRight]
  exact (Nat.strictMono_cast.cmp_map_eq _ _).symm

theorem value_strip (decimal : Decimal) (steps : Nat) :
    (decimal.strip steps).value = decimal.value := by
  induction steps generalizing decimal with
  | zero => rfl
  | succ steps induction =>
    rw [strip]
    split
    case isFalse => rfl
    case isTrue ends =>
      have digits : decimal.digits = decimal.digits / 10 * 10 := by omega
      rw [induction, value, value, zpow_add_one₀ (by norm_num)]
      conv_rhs => rw [digits]
      push_cast
      ring

/-! ## Rounding -/

/-- Whether a number lies in the interval. -/
def Rounding.Contains (interval : Rounding) (number : ℚ) : Prop :=
  (interval.low * 2 ^ interval.exponent < number ∨
      interval.closed ∧ interval.low * 2 ^ interval.exponent = number) ∧
    (number < interval.high * 2 ^ interval.exponent ∨
      interval.closed ∧ number = interval.high * 2 ^ interval.exponent)

theorem Rounding.holds_iff {interval : Rounding} {decimal : Decimal} :
    interval.holds decimal ↔ interval.Contains decimal.value := by
  simp only [holds, compareScaled_eq, Bool.and_eq_true, Bool.or_eq_true, beq_iff_eq,
    compare_lt_iff_lt, compare_gt_iff_gt, compare_eq_iff_eq, Contains, value]
  grind

theorem low_roundingOf (dyadic : Dyadic) :
    (roundingOf dyadic).low = 4 * dyadic.mantissa - 1 ∧
        dyadic.mantissa = Dyadic.leadingBit ∧ -1074 < dyadic.exponent ∨
      (roundingOf dyadic).low = 4 * dyadic.mantissa - 2 ∧
        ¬ (dyadic.mantissa = Dyadic.leadingBit ∧ -1074 < dyadic.exponent) := by
  simp only [roundingOf]
  split
  case isTrue half => exact .inl ⟨rfl, half⟩
  case isFalse whole => exact .inr ⟨rfl, whole⟩

/-- Quarters of last places between the upper end of one interval and the lower end of a later one.
If the ends meet, one of the two mantissas is odd. -/
theorem high_le_low {first second : Dyadic} (isFirst : first.IsDouble) (isSecond : second.IsDouble)
    (places : Nat) (apart : second.exponent = first.exponent + places)
    (later : places = 0 → first.mantissa < second.mantissa) :
    (roundingOf first).high ≤ (roundingOf second).low * 2 ^ places ∧
      ((roundingOf first).high = (roundingOf second).low * 2 ^ places →
        ¬ ((roundingOf first).closed ∧ (roundingOf second).closed)) := by
  obtain ⟨-, upper, least, -, -⟩ := isFirst
  obtain ⟨-, -, -, -, leading⟩ := isSecond
  have low := low_roundingOf second
  have high : (roundingOf first).high = 4 * first.mantissa + 2 := rfl
  have closed (dyadic : Dyadic) : (roundingOf dyadic).closed ↔ dyadic.mantissa % 2 = 0 :=
    decide_eq_true_iff
  rw [high, closed, closed]
  simp only [Dyadic.leadingBit] at upper leading low
  cases places with
  | zero =>
    have := later rfl
    omega
  | succ places =>
    have double : 2 ≤ 2 ^ (places + 1) := Nat.le_self_pow (by omega) 2
    have widened := Nat.mul_le_mul_left (roundingOf second).low double
    omega

/-- A number lies in the interval of one double only. -/
theorem eq_of_contains {first second : Dyadic} (isFirst : first.IsDouble)
    (isSecond : second.IsDouble) {number : ℚ} (inFirst : (roundingOf first).Contains number)
    (inSecond : (roundingOf second).Contains number) : first = second := by
  -- A number in two intervals is the upper end of the one and the lower end of the other.
  have separate {first second : Dyadic} (isFirst : first.IsDouble) (isSecond : second.IsDouble)
      (places : Nat) (apart : second.exponent = first.exponent + places)
      (later : places = 0 → first.mantissa < second.mantissa)
      (inFirst : (roundingOf first).Contains number)
      (inSecond : (roundingOf second).Contains number) : False := by
    obtain ⟨ordered, meeting⟩ := high_le_low isFirst isSecond places apart later
    have unit : (0 : ℚ) < 2 ^ (first.exponent - 2) := by positivity
    have low : ((roundingOf second).low : ℚ) * 2 ^ (second.exponent - 2) =
        ((roundingOf second).low * 2 ^ places : Nat) * 2 ^ (first.exponent - 2) := by
      rw [apart, show first.exponent + places - 2 = places + (first.exponent - 2) by ring,
        zpow_add₀ two_ne_zero, zpow_natCast]
      push_cast
      ring
    have below : ((roundingOf first).high : ℚ) * 2 ^ (first.exponent - 2) ≤
        (roundingOf second).low * 2 ^ (second.exponent - 2) := by
      rw [low]
      gcongr
    have same (ends : ((roundingOf first).high : ℚ) * 2 ^ (first.exponent - 2) =
        (roundingOf second).low * 2 ^ (second.exponent - 2)) :
        (roundingOf first).high = (roundingOf second).low * 2 ^ places := by
      rw [low] at ends
      exact_mod_cast mul_right_cancel₀ unit.ne' ends
    obtain ⟨-, above⟩ := inFirst
    obtain ⟨under, -⟩ := inSecond
    have firstUnit : (roundingOf first).exponent = first.exponent - 2 := rfl
    have secondUnit : (roundingOf second).exponent = second.exponent - 2 := rfl
    rw [firstUnit] at above
    rw [secondUnit] at under
    grind
  obtain earlier | same | later := lt_trichotomy first.exponent second.exponent
  · exact (separate isFirst isSecond (second.exponent - first.exponent).toNat (by omega)
      (by omega) inFirst inSecond).elim
  · obtain less | equal | more := lt_trichotomy first.mantissa second.mantissa
    · exact (separate isFirst isSecond 0 (by omega) (fun _ => less) inFirst inSecond).elim
    · cases first
      cases second
      simp_all
    · exact (separate isSecond isFirst 0 (by omega) (fun _ => more) inSecond inFirst).elim
  · exact (separate isSecond isFirst (first.exponent - second.exponent).toNat (by omega)
      (by omega) inSecond inFirst).elim

end Decimal
end CodeAtlas
