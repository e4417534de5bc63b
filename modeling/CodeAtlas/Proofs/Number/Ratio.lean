import CodeAtlas.Proofs.Graph.Basic
import Mathlib.Algebra.Order.Field.Basic
import Mathlib.Data.Rat.Cast.Order

/-!
# Ratios of counts

Over the rational numbers the ratio of two counts is their quotient, also where the second is zero.
A part of a whole gives a ratio between zero and one, which no clamp changes.
-/

namespace CodeAtlas
namespace Scalar

theorem zero_rat : (zero : Rat) = 0 := Nat.cast_zero

theorem one_rat : (one : Rat) = 1 := Nat.cast_one

theorem lt_rat {left right : Rat} : lt left right = true ↔ left < right := decide_eq_true_iff

theorem ratio_eq_div (part whole : Nat) : (ratio part whole : Rat) = part / whole := by
  unfold ratio
  split
  case isTrue none => rw [none, Nat.cast_zero, div_zero, zero_rat]
  case isFalse => rfl

theorem ratio_nonneg (part whole : Nat) : (0 : Rat) ≤ ratio part whole := by
  rw [ratio_eq_div]
  exact div_nonneg (Nat.cast_nonneg part) (Nat.cast_nonneg whole)

theorem ratio_le_one {part whole : Nat} (isPart : part ≤ whole) :
    (ratio part whole : Rat) ≤ 1 := by
  rw [ratio_eq_div]
  exact div_le_one_of_le₀ (Nat.cast_le.mpr isPart) (Nat.cast_nonneg whole)

theorem ratio_lt_ratio {part other whole : Nat} (positive : 0 < whole) (smaller : part < other) :
    (ratio part whole : Rat) < ratio other whole := by
  rw [ratio_eq_div, ratio_eq_div]
  exact (div_lt_div_iff_of_pos_right (Nat.cast_pos.mpr positive)).mpr (Nat.cast_lt.mpr smaller)

theorem clamp_of_mem {value : Rat} (nonneg : 0 ≤ value) (le_one : value ≤ 1) :
    clamp value = value := by
  have above : max zero value = value := by
    unfold max
    simp only [lt_rat, zero_rat]
    split
    · rfl
    · exact le_antisymm nonneg (not_lt.mp ‹_›)
  have below : min one value = value := by
    unfold min
    simp only [lt_rat, one_rat]
    split
    · rfl
    · exact le_antisymm (not_lt.mp ‹_›) le_one
  rw [clamp, above, below]

theorem clamp_ratio {part whole : Nat} (isPart : part ≤ whole) :
    clamp (ratio part whole : Rat) = ratio part whole :=
  clamp_of_mem (ratio_nonneg part whole) (ratio_le_one isPart)

end Scalar
end CodeAtlas
