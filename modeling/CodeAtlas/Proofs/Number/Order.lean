import Mathlib.Order.Compare

/-!
# The order of doubles

Two doubles that are numbers can be compared, so that one which is not above another is at most the
other.
-/

namespace CodeAtlas
namespace Number

open Float.Model

/-- A number that has a written form. -/
abbrev IsFinite (value : Float) : Prop := (value.isNaN || value.isInf) = false

/-- Comparing two doubles the other way round turns the outcome round. -/
theorem compare_swap (left right : UnpackedFloat) :
    right.compare left = (left.compare right).map Ordering.swap := by
  cases left with
  | notANumber => cases right <;> rfl
  | infinity sign =>
    cases sign <;> cases right with
    | infinity other => cases other <;> rfl
    | finite other _ _ _ => cases other <;> rfl
    | _ => rfl
  | zero sign =>
    cases right with
    | infinity other => cases other <;> rfl
    | finite other _ _ _ => cases other <;> rfl
    | _ => rfl
  | finite sign mantissa exponent _ =>
    cases right with
    | infinity other => cases sign <;> cases other <;> rfl
    | notANumber => cases sign <;> rfl
    | zero other => cases sign <;> rfl
    | finite other otherMantissa otherExponent _ =>
      -- Magnitudes are compared by their exponents first, and those of negative doubles backwards.
      have magnitudes : (compare otherExponent exponent).then (compare otherMantissa mantissa) =
          ((compare exponent otherExponent).then (compare mantissa otherMantissa)).swap := by
        rw [Ordering.swap_then, ← Std.OrientedOrd.eq_swap, ← Std.OrientedOrd.eq_swap]
      cases sign <;> cases other
      · exact congrArg (fun order => some order.swap) magnitudes
      · rfl
      · rfl
      · exact congrArg some magnitudes

theorem exists_compare {left right : UnpackedFloat} (leftNumber : left.isNaN = false)
    (rightNumber : right.isNaN = false) : ∃ order, left.compare right = some order := by
  cases left with
  | notANumber => cases leftNumber
  | infinity sign =>
    cases right with
    | notANumber => cases rightNumber
    | _ => cases sign <;> exact ⟨_, rfl⟩
  | zero sign =>
    cases right with
    | notANumber => cases rightNumber
    | zero other => exact ⟨_, rfl⟩
    | infinity other => cases other <;> exact ⟨_, rfl⟩
    | finite other _ _ _ => cases other <;> exact ⟨_, rfl⟩
  | finite sign _ _ _ =>
    cases right with
    | notANumber => cases rightNumber
    | zero other => cases sign <;> exact ⟨_, rfl⟩
    | infinity other => cases sign <;> cases other <;> exact ⟨_, rfl⟩
    | finite other _ _ _ => cases sign <;> cases other <;> exact ⟨_, rfl⟩

theorem lt_iff (left right : Float) :
    left < right ↔ left.toModel.unpack.compare right.toModel.unpack = some .lt := by
  change decide (left.toModel < right.toModel) = true ↔ _
  rw [decide_eq_true_iff]
  exact beq_iff_eq

theorem le_iff (left right : Float) :
    left ≤ right ↔ (left.toModel.unpack.compare right.toModel.unpack).any Ordering.isLE := by
  change decide (left.toModel ≤ right.toModel) = true ↔ _
  rw [decide_eq_true_iff]
  rfl

theorem le_of_not_lt {left right : Float} (leftNumber : left.isNaN = false)
    (rightNumber : right.isNaN = false) (notBelow : ¬ right < left) : left ≤ right := by
  obtain ⟨order, compared⟩ := exists_compare leftNumber rightNumber
  have turned := compare_swap left.toModel.unpack right.toModel.unpack
  rw [compared] at turned
  rw [le_iff, compared]
  cases order with
  | gt => exact absurd ((lt_iff right left).mpr turned) notBelow
  | lt => rfl
  | eq => rfl

end Number
end CodeAtlas
