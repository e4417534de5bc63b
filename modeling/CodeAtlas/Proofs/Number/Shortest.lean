import CodeAtlas.Proofs.Number.Decimal
import Mathlib.Algebra.Order.Floor.Semifield
import Mathlib.Data.Rat.Floor

/-!
# The shortest decimal

The search for the shortest decimal starts at the leading place and finds one within twenty places,
since by then the places are narrower than the interval. The decimal that it finds rounds to the
double.
-/

namespace CodeAtlas
namespace Decimal

/-- The number that an interval is about. -/
def Rounding.number (interval : Rounding) : ℚ := interval.middle * 2 ^ interval.exponent

/-! ## Neighbours -/

theorem neighbours_fst (interval : Rounding) (exponent : ℤ) :
    (neighbours interval exponent).1 = ⟨⌊interval.number / 10 ^ exponent⌋₊, exponent⟩ := by
  have two := zpow_mul_pow_toNat two_pos interval.exponent
  have ten := zpow_mul_pow_toNat (show (0 : ℚ) < 10 by norm_num) exponent
  have quotient : interval.number / 10 ^ exponent =
      (interval.middle * Nat.pow 2 interval.exponent.toNat * Nat.pow 10 (-exponent).toNat : Nat) /
        (Nat.pow 2 (-interval.exponent).toNat * Nat.pow 10 exponent.toNat : Nat) := by
    push_cast [Nat.pow_eq]
    rw [← two, ← ten, Rounding.number]
    field_simp
  rw [quotient, Nat.floor_div_eq_div]
  rfl

theorem neighbours_snd (interval : Rounding) (exponent : ℤ) :
    (neighbours interval exponent).2 =
      ⟨(neighbours interval exponent).1.digits + 1, exponent⟩ := rfl

theorem lt_above_le (interval : Rounding) (exponent : ℤ) :
    interval.number < (neighbours interval exponent).2.value ∧
      (neighbours interval exponent).2.value ≤ interval.number + 10 ^ exponent := by
  have place : (0 : ℚ) < 10 ^ exponent := by positivity
  have nonneg : 0 ≤ interval.number / 10 ^ exponent := by
    unfold Rounding.number
    positivity
  have below := Nat.floor_le nonneg
  have above := Nat.lt_floor_add_one (interval.number / 10 ^ exponent)
  rw [le_div_iff₀ place] at below
  rw [div_lt_iff₀ place] at above
  rw [neighbours_snd, neighbours_fst]
  simp only [value, Nat.cast_add, Nat.cast_one]
  constructor <;> linarith

theorem holds_of_onGrid? {interval : Rounding} {exponent : ℤ} {decimal : Decimal}
    (found : onGrid? interval exponent = some decimal) : interval.holds decimal := by
  unfold onGrid? at found
  dsimp only at found
  split at found <;> cases found
  case h_1 below above =>
    unfold nearer
    split
    · exact below
    · exact above
    · split
      · exact below
      · exact above
  case h_2 below _ => exact below
  case h_3 _ above => exact above

/-- A decimal is found where the places are narrower than the upper part of the interval. -/
theorem onGrid?_ne_none {interval : Rounding} {exponent : ℤ}
    (low : interval.low < interval.middle)
    (narrow : interval.number + 10 ^ exponent < interval.high * 2 ^ interval.exponent) :
    onGrid? interval exponent ≠ none := by
  obtain ⟨above, close⟩ := lt_above_le interval exponent
  have lower : (interval.low : ℚ) * 2 ^ interval.exponent ≤ interval.number := by
    unfold Rounding.number
    gcongr
  have held : interval.holds (neighbours interval exponent).2 :=
    Rounding.holds_iff.mpr ⟨.inl (lower.trans_lt above), .inl (close.trans_lt narrow)⟩
  unfold onGrid?
  dsimp only
  rw [held]
  cases interval.holds (neighbours interval exponent).1 <;> exact nofun

theorem holds_refine {interval : Rounding} (low : interval.low < interval.middle) (steps : Nat)
    {exponent : ℤ}
    (narrow : interval.number + 10 ^ (exponent - steps) <
      interval.high * 2 ^ interval.exponent) :
    interval.holds (refine interval (steps + 1) exponent) := by
  induction steps generalizing exponent with
  | zero =>
    rw [refine]
    split
    case h_1 found => exact holds_of_onGrid? found
    case h_2 none => exact absurd none (onGrid?_ne_none low (by simpa using narrow))
  | succ steps induction =>
    rw [refine]
    split
    case h_1 found => exact holds_of_onGrid? found
    case h_2 =>
      apply induction
      rwa [show exponent - 1 - steps = exponent - (steps + 1 : Nat) by push_cast; ring]

/-! ## The leading place -/

theorem leading_le (interval : Rounding) (steps : Nat) (exponent : ℤ) :
    leading interval steps exponent ≤ exponent := by
  induction steps generalizing exponent with
  | zero => exact le_rfl
  | succ steps induction =>
    rw [leading]
    split
    · exact (induction _).trans (by omega)
    · exact le_rfl

/-- A power of ten is at most twice a power of two if its exponent is estimated from that of the
power of two by a fraction close to the logarithm of two. -/
theorem ten_zpow_le {denominator numerator : Nat} (positive : 0 < denominator)
    (lower : 2 ^ denominator ≤ 10 ^ numerator) (upper : 10 ^ numerator ≤ 2 ^ (denominator + 1))
    {binary decimal : ℤ} (small : binary ≤ denominator)
    (estimate : decimal * denominator ≤ binary * numerator) :
    (10 : ℚ) ^ decimal ≤ 2 * 2 ^ binary := by
  have lowerCast : (2 : ℚ) ^ denominator ≤ 10 ^ numerator := by exact_mod_cast lower
  have upperCast : (10 : ℚ) ^ numerator ≤ 2 ^ (denominator + 1) := by exact_mod_cast upper
  have power : ((10 : ℚ) ^ numerator) ^ binary ≤ 2 ^ (binary * denominator + denominator) := by
    obtain ⟨count, rfl | rfl⟩ := binary.eq_nat_or_neg
    · calc ((10 : ℚ) ^ numerator) ^ (count : ℤ) ≤ (2 ^ (denominator + 1)) ^ (count : ℤ) := by
            rw [zpow_natCast, zpow_natCast]
            gcongr
        _ = 2 ^ (count * denominator + count : ℤ) := by
            rw [← zpow_natCast, ← zpow_mul]
            congr 1
            push_cast
            ring
        _ ≤ 2 ^ (count * denominator + denominator : ℤ) := by
            gcongr
            exact one_le_two
    · calc ((10 : ℚ) ^ numerator) ^ (-count : ℤ) ≤ (2 ^ denominator) ^ (-count : ℤ) := by
            rw [zpow_neg, zpow_neg, zpow_natCast, zpow_natCast]
            gcongr
        _ = 2 ^ (-count * denominator : ℤ) := by
            rw [← zpow_natCast, ← zpow_mul, mul_comm]
        _ ≤ 2 ^ (-count * denominator + denominator : ℤ) := by
            gcongr
            · exact one_le_two
            · omega
  have raised : ((10 : ℚ) ^ decimal) ^ denominator ≤ (2 * 2 ^ binary) ^ denominator := by
    calc ((10 : ℚ) ^ decimal) ^ denominator = 10 ^ (decimal * denominator) := by
          rw [← zpow_natCast, ← zpow_mul]
      _ ≤ 10 ^ (binary * numerator) := by
          gcongr
          norm_num
      _ = (10 ^ numerator) ^ binary := by rw [← zpow_natCast, ← zpow_mul, mul_comm]
      _ ≤ 2 ^ (binary * denominator + denominator) := power
      _ = (2 * 2 ^ binary) ^ denominator := by
          rw [mul_comm 2, ← zpow_add_one₀ two_ne_zero, ← zpow_natCast, ← zpow_mul]
          congr 1
          ring
  exact (pow_le_pow_iff_left₀ (by positivity) (by positivity) positive.ne').mp raised

/-! ## The shortest decimal of a double -/

theorem low_lt_middle {double : Dyadic} (isDouble : double.IsDouble) :
    (roundingOf double).low < (roundingOf double).middle := by
  have low := low_roundingOf double
  have middle : (roundingOf double).middle = 4 * double.mantissa := rfl
  have := isDouble.pos
  omega

theorem high_roundingOf (double : Dyadic) :
    (roundingOf double).high * (2 : ℚ) ^ (roundingOf double).exponent =
      (roundingOf double).number + 2 ^ (double.exponent - 1) := by
  have half : double.exponent - 1 = double.exponent - 2 + 1 := by ring
  rw [Rounding.number, half, zpow_add_one₀ two_ne_zero]
  simp only [roundingOf]
  push_cast
  ring

/-- Nineteen places after the estimated one are narrower than half of a last place. -/
theorem ten_zpow_lt {double : Dyadic} (isDouble : double.IsDouble) {place : ℤ}
    (estimated : place ≤ (double.exponent + Nat.log2 double.mantissa) * 30103 / 100000 + 1) :
    (10 : ℚ) ^ (place - 19) < 2 ^ (double.exponent - 1) := by
  obtain ⟨positive, upper, -, greatest, -⟩ := isDouble
  have bits : double.mantissa.log2 < 53 := (Nat.log2_lt positive.ne').mpr upper
  have power : (2 : ℚ) ^ double.mantissa.log2 ≤ 2 ^ 52 := by
    gcongr
    · exact one_le_two
    · omega
  have ten : (10 : ℚ) ^ (place - 1) ≤ 2 * 2 ^ (double.exponent + double.mantissa.log2) :=
    ten_zpow_le (by norm_num) (by decide +kernel : 2 ^ 100000 ≤ 10 ^ 30103)
      (by decide +kernel : 10 ^ 30103 ≤ 2 ^ (100000 + 1)) (by omega) (by omega)
  calc (10 : ℚ) ^ (place - 19) = 10 ^ (place - 1) / 10 ^ 18 := by
        rw [show place - 19 = place - 1 - (18 : Nat) by push_cast; ring,
          zpow_sub₀ (by norm_num), zpow_natCast]
    _ ≤ 2 * 2 ^ (double.exponent + double.mantissa.log2) / 10 ^ 18 := by gcongr
    _ = 2 ^ double.exponent * (2 * 2 ^ double.mantissa.log2 / 10 ^ 18) := by
        rw [zpow_add₀ two_ne_zero, zpow_natCast]
        ring
    _ ≤ 2 ^ double.exponent * (2 * 2 ^ 52 / 10 ^ 18) := by gcongr
    _ < 2 ^ double.exponent * 2⁻¹ := by
        gcongr
        norm_num
    _ = 2 ^ (double.exponent - 1) := (zpow_sub_one₀ two_ne_zero _).symm

/-- The shortest decimal of a double rounds to the double. -/
theorem contains_shortest {double : Dyadic} (isDouble : double.IsDouble) :
    (roundingOf double).Contains (shortest double).value := by
  rw [shortest, value_strip]
  refine Rounding.holds_iff.mp (holds_refine (low_lt_middle isDouble) 19 ?_)
  rw [high_roundingOf]
  exact (add_lt_add_iff_left _).mpr (ten_zpow_lt isDouble (leading_le _ _ _))

/-- Doubles with the same shortest decimal are the same, whatever way the decimals are written. -/
theorem eq_of_value_shortest_eq {first second : Dyadic} (isFirst : first.IsDouble)
    (isSecond : second.IsDouble) (same : (shortest first).value = (shortest second).value) :
    first = second :=
  eq_of_contains isFirst isSecond (contains_shortest isFirst) (same ▸ contains_shortest isSecond)

theorem value_shortest_pos {double : Dyadic} (isDouble : double.IsDouble) :
    0 < (shortest double).value := by
  have low : 0 < (roundingOf double).low := by
    have low := low_roundingOf double
    have := isDouble.pos
    omega
  have positive : (0 : ℚ) < (roundingOf double).low * 2 ^ (roundingOf double).exponent := by
    positivity
  obtain ⟨above | ⟨-, same⟩, -⟩ := contains_shortest isDouble
  · exact positive.trans above
  · exact same ▸ positive

end Decimal
end CodeAtlas
