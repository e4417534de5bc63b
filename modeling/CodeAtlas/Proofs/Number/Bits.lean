import CodeAtlas.Proofs.Number.Decimal
import CodeAtlas.Proofs.Number.Order

/-!
# Bits of a double

The bits of a double are a sign, an exponent and a fraction. A finite double other than zero is
told by its sign and its magnitude.
-/

namespace CodeAtlas
namespace Number

open Float.Model

/-- The bits of a double as a number. -/
def bits (value : Float) : Nat := value.toBits.toNat

theorem bits_lt (value : Float) : bits value < 2 ^ 64 := value.toBits.toNat_lt

theorem eq_of_bits_eq {left right : Float} (same : bits left = bits right) : left = right := by
  obtain ⟨⟨leftBits, _⟩⟩ := left
  obtain ⟨⟨rightBits, _⟩⟩ := right
  have equal : leftBits = rightBits := UInt64.toNat_inj.mp same
  subst equal
  rfl

/-- The sign of a double. -/
def sign (value : Float) : UnpackedFloat.Sign :=
  if bits value / 2 ^ 63 = 0 then .positive else .negative

section Unpack

variable (value : Float)

theorem toNat_unpackMantissa :
    (@UnpackedFloat.unpackMantissa Format.binary64 value.toBits.toBitVec).toNat =
      bits value % Dyadic.leadingBit := by
  simp [UnpackedFloat.unpackMantissa, bits, Dyadic.leadingBit]

theorem toNat_unpackExponent :
    (@UnpackedFloat.unpackExponent Format.binary64 value.toBits.toBitVec).toNat =
      bits value / Dyadic.leadingBit % 2048 := by
  simp [UnpackedFloat.unpackExponent, bits, Dyadic.leadingBit, Nat.shiftRight_eq_div_pow]

theorem ofBitVec_unpackSign :
    UnpackedFloat.Sign.ofBitVec (@UnpackedFloat.unpackSign Format.binary64 value.toBits.toBitVec) =
      sign value := by
  have small := bits_lt value
  have read : (@UnpackedFloat.unpackSign Format.binary64 value.toBits.toBitVec).toNat =
      bits value / 2 ^ 63 := by
    refine (BitVec.toNat_cast _ _).trans ?_
    rw [BitVec.extractLsb_toNat, Nat.shiftRight_eq_div_pow]
    exact Nat.mod_eq_of_lt (by unfold bits at small; simp; omega)
  unfold UnpackedFloat.Sign.ofBitVec sign
  exact if_congr (by rw [← BitVec.toNat_inj, read]; rfl) rfl rfl

end Unpack

theorem finite_eq_finite {sign : UnpackedFloat.Sign} {first second : Nat} {left right : ℤ}
    (mantissas : first = second) (exponents : left = right) (positive : 0 < first) :
    UnpackedFloat.finite sign first left positive =
      .finite sign second right (mantissas ▸ positive) := by
  subst mantissas exponents
  rfl

theorem ofFloat_eq (value : Float) :
    Dyadic.ofFloat value =
      if bits value / Dyadic.leadingBit % 2048 = 0 then
        ⟨bits value % Dyadic.leadingBit, -1074⟩
      else
        ⟨bits value % Dyadic.leadingBit + Dyadic.leadingBit,
          (bits value / Dyadic.leadingBit % 2048 : Nat) - 1075⟩ := rfl

/-- What the bits of a double can stand for. -/
theorem unpack_cases (value : Float) :
    value.toModel.unpack = .infinity (sign value) ∨ value.toModel.unpack = .notANumber ∨
      value.toModel.unpack = .zero (sign value) ∨
      ∃ positive, value.toModel.unpack =
        .finite (sign value) (Dyadic.ofFloat value).mantissa (Dyadic.ofFloat value).exponent
          positive := by
  have unpacked : value.toModel.unpack =
      UnpackedFloat.unpack Format.binary64 value.toBits.toBitVec := rfl
  unfold UnpackedFloat.unpack at unpacked
  dsimp only at unpacked
  rw [ofBitVec_unpackSign] at unpacked
  have low : bits value / Dyadic.leadingBit % 2048 = 0 ↔
      @UnpackedFloat.unpackExponent Format.binary64 value.toBits.toBitVec = 0#11 := by
    rw [← toNat_unpackExponent, ← BitVec.toNat_inj]
    rfl
  rw [ofFloat_eq, ← toNat_unpackMantissa]
  by_cases special :
      @UnpackedFloat.unpackExponent Format.binary64 value.toBits.toBitVec = -1#11
  · rw [if_pos special] at unpacked
    by_cases noFraction :
        @UnpackedFloat.unpackMantissa Format.binary64 value.toBits.toBitVec = 0#52
    · exact .inl (unpacked.trans (if_pos noFraction))
    · exact .inr (.inl (unpacked.trans (if_neg noFraction)))
  · rw [if_neg special] at unpacked
    by_cases isLow : @UnpackedFloat.unpackExponent Format.binary64 value.toBits.toBitVec = 0#11
    · rw [if_pos isLow] at unpacked
      rw [if_pos (low.mpr isLow)]
      by_cases noFraction :
          @UnpackedFloat.unpackMantissa Format.binary64 value.toBits.toBitVec = 0#52
      · exact .inr (.inr (.inl (unpacked.trans (dif_pos noFraction))))
      · rw [dif_neg noFraction] at unpacked
        refine .inr (.inr (.inr ⟨_, unpacked.trans (finite_eq_finite rfl ?_ _)⟩))
        rw [isLow]
        rfl
    · rw [if_neg isLow] at unpacked
      rw [if_neg (mt low.mp isLow)]
      refine .inr (.inr (.inr ⟨_, unpacked.trans (finite_eq_finite ?_ ?_ _)⟩))
      · rw [BitVec.toNat_append, ← Nat.shiftLeft_add_eq_or_of_lt (BitVec.isLt _), Nat.add_comm]
        rfl
      · rw [← toNat_unpackExponent]
        rfl

theorem unpack_eq {value : Float} (finite : IsFinite value) (notZero : (value == 0) = false) :
    ∃ positive, value.toModel.unpack =
      .finite (sign value) (Dyadic.ofFloat value).mantissa (Dyadic.ofFloat value).exponent
        positive := by
  change (value.toModel.unpack.isNaN || value.toModel.unpack.isInf) = false at finite
  change value.toModel.unpack.beq (0 : Float).toModel.unpack = false at notZero
  obtain infinite | notNumber | zero | unpacked := unpack_cases value
  · rw [infinite] at finite
    cases finite
  · rw [notNumber] at finite
    cases finite
  · rw [zero] at notZero
    cases sign value <;> cases notZero
  · exact unpacked

theorem isDouble_ofFloat {value : Float} (finite : IsFinite value)
    (notZero : (value == 0) = false) : (Dyadic.ofFloat value).IsDouble := by
  obtain ⟨positive, -⟩ := unpack_eq finite notZero
  refine ⟨positive, ?_, ?_, ?_, ?_⟩ <;> rw [ofFloat_eq, Dyadic.leadingBit] <;> split <;> grind

/-- A double is told by its sign and its magnitude. -/
theorem eq_of_ofFloat_eq {left right : Float} (signs : sign left = sign right)
    (magnitudes : Dyadic.ofFloat left = Dyadic.ofFloat right) : left = right := by
  have leftSmall := bits_lt left
  have rightSmall := bits_lt right
  apply eq_of_bits_eq
  have upper : bits left / 2 ^ 63 = bits right / 2 ^ 63 := by
    unfold sign at signs
    split_ifs at signs <;> omega
  have lower : bits left % 2 ^ 63 = bits right % 2 ^ 63 := by
    rw [ofFloat_eq, ofFloat_eq, Dyadic.leadingBit] at magnitudes
    split_ifs at magnitudes <;> simp only [Dyadic.mk.injEq] at magnitudes <;> omega
  omega

theorem lt_zero_iff {value : Float} (finite : IsFinite value) (notZero : (value == 0) = false) :
    value < 0 ↔ sign value = .negative := by
  obtain ⟨positive, unpacked⟩ := unpack_eq finite notZero
  have zero : (0 : Float).toModel.unpack = .zero .positive := rfl
  rw [lt_iff, unpacked, zero]
  cases sign value with
  | positive => exact ⟨nofun, nofun⟩
  | negative => exact ⟨fun _ => rfl, fun _ => rfl⟩

end Number
end CodeAtlas
