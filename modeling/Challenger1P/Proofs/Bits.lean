import Mathlib.Data.Nat.Bitwise

/-!
# Bits of bytes

Masks of one bit, and bytes told apart by their bits.
-/

namespace Challenger1P

theorem eq_of_testBit_toNat_eq {a b : UInt8} (h : ∀ i, a.toNat.testBit i = b.toNat.testBit i) :
    a = b :=
  UInt8.toNat_inj.1 (Nat.eq_of_testBit_eq h)

/-- A bit singled out with a mask. -/
theorem masked_eq_testBit (value : UInt8) (i : Fin 8) :
    (value &&& (1 : UInt8) <<< i.val.toUInt8 != 0) = value.toNat.testBit i := by
  have hpow : ((1 : UInt8) <<< i.val.toUInt8).toNat = 2 ^ i.val := by
    revert i
    decide
  have hmask : (value &&& (1 : UInt8) <<< i.val.toUInt8).toNat = value.toNat &&& 2 ^ i.val := by
    rw [UInt8.toNat_and, hpow]
  rw [Nat.and_two_pow] at hmask
  rw [Bool.eq_iff_iff, bne_iff_ne, Ne, ← UInt8.toNat_inj, hmask]
  cases value.toNat.testBit i <;> simp

end Challenger1P
