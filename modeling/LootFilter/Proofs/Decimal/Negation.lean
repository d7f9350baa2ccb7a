import Mathlib
import LootFilter.Decimal.Binary64

/-!
# Negating doubles

Negation flips the sign of a double and keeps the bits of its exponent and mantissa, so negating
twice changes nothing. The only double that is not a number has no sign to flip, and counts as
positive.
-/

namespace LootFilter.Decimal

open Float.Model (Format)
open Float.Model.UnpackedFloat

variable {b : BitVec Format.binary64.numBits}

/-- The bits with the other sign. -/
def flipSign (b : BitVec Format.binary64.numBits) : BitVec Format.binary64.numBits :=
  packComponents Format.binary64 (-Sign.ofBitVec (unpackSign b)) (unpackExponent b)
    (unpackMantissa b)

theorem flipSign_flipSign (b : BitVec Format.binary64.numBits) : flipSign (flipSign b) = b := by
  have twice (s : Sign) : - -s = s := by cases s <;> rfl
  simp only [flipSign, unpackSign_packComponents, unpackExponent_packComponents,
    unpackMantissa_packComponents, Sign.ofBitVec_toBitVec, twice,
    packComponents_unpackSign_unpackExponent_unpackMantissa]

theorem unpackSign_flipSign : unpackSign (flipSign b) = ~~~ unpackSign b := by
  rw [flipSign, unpackSign_packComponents]
  generalize unpackSign b = s
  revert s
  decide

theorem isNaNBits_flipSign : isNaNBits (flipSign b) = isNaNBits b := by
  simp only [isNaNBits, flipSign, unpackExponent_packComponents, unpackMantissa_packComponents]

theorem unpack_flipSign :
    unpack Format.binary64 (flipSign b) = (unpack Format.binary64 b).neg := by
  simp only [unpack, flipSign, unpackSign_packComponents, unpackExponent_packComponents,
    unpackMantissa_packComponents, Sign.ofBitVec_toBitVec]
  split
  · split <;> rfl
  · split
    · split <;> rfl
    · rfl

/-- Negating is flipping the sign. -/
theorem pack_neg_unpack (number : ¬ isNaNBits b) :
    pack Format.binary64 (unpack Format.binary64 b).neg = flipSign b := by
  rw [← unpack_flipSign, pack_unpack, isNaNBits_flipSign, if_neg number]

theorem eq_packedNaN (valid : Format.binary64.Valid b) (nan : isNaNBits b) :
    b = packedNaN Format.binary64 := by
  have bits := of_decide_eq_true nan
  exact valid.eq_packedNaN bits.1 bits.2

theorem not_isNaNBits (valid : Format.binary64.Valid b) (negative : unpackSign b = 1#1) :
    ¬ isNaNBits b := by
  intro nan
  rw [eq_packedNaN valid nan] at negative
  exact absurd negative (by decide)

theorem pack_neg_unpack_twice (valid : Format.binary64.Valid b) :
    pack Format.binary64 (unpack Format.binary64
      (pack Format.binary64 (unpack Format.binary64 b).neg)).neg = b := by
  by_cases nan : isNaNBits b
  · rw [eq_packedNaN valid nan]
    rfl
  · have flipped : ¬ isNaNBits (flipSign b) := by rwa [isNaNBits_flipSign]
    rw [pack_neg_unpack nan, pack_neg_unpack flipped, flipSign_flipSign]

theorem isNegative_ofModel (valid : Format.binary64.Valid b) :
    isNegative (.ofModel ⟨.ofBitVec b, valid⟩) ↔ unpackSign b = 1#1 := by
  have shift : (UInt64.ofBitVec b >>> 63).toNat = b.toNat / 2 ^ 63 := by
    rw [UInt64.toNat_shiftRight]
    exact Nat.shiftRight_eq_div_pow _ _
  have bit : (unpackSign b).toNat = b.toNat / 2 ^ 63 := by
    have small : b.toNat < 2 ^ 64 := b.isLt
    change b.toNat >>> 63 % 2 ^ 1 = _
    rw [Nat.shiftRight_eq_div_pow]
    omega
  unfold isNegative
  rw [beq_iff_eq, ← UInt64.toNat_inj, ← BitVec.toNat_inj, bit]
  exact shift ▸ Iff.rfl

theorem not_isNegative_neg {x : Float} (h : isNegative x) : ¬ isNegative (-x) := by
  obtain ⟨⟨bits, valid⟩⟩ := x
  have negative := (isNegative_ofModel (b := bits.toBitVec) valid).1 h
  intro again
  have sign : unpackSign (pack Format.binary64
      (unpack Format.binary64 bits.toBitVec).neg) = 1#1 :=
    (isNegative_ofModel _).1 again
  rw [pack_neg_unpack (not_isNaNBits valid negative), unpackSign_flipSign, negative] at sign
  exact absurd sign (by decide)

theorem neg_neg (x : Float) : - -x = x := by
  obtain ⟨⟨bits, valid⟩⟩ := x
  have twice := congrArg UInt64.ofBitVec (pack_neg_unpack_twice valid)
  change Float.ofModel ⟨UInt64.ofBitVec _, _⟩ = Float.ofModel ⟨bits, valid⟩
  simp only [Float.ofModel.injEq, Float.Model.mk.injEq]
  exact twice

end LootFilter.Decimal
