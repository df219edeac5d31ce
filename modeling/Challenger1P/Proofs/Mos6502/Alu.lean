import Challenger1P.Mos6502.Alu
import Challenger1P.Proofs.Bits

/-!
# Arithmetic against whole numbers

The functions of `Alu` on bytes and flags, each equal to the same operation on whole numbers: the
result is what the number leaves modulo 256 (`byte`), a carry is a result outside of 0 to 255, and
an overflow is one outside of -128 to 127 when the operands are read with their signs (`signed`,
`overflows`).
-/

namespace Challenger1P

/-- What a whole number leaves modulo 256. -/
def byte (n : Int) : UInt8 := UInt8.ofNat (n % 256).toNat

/-- A byte as a two's complement number. -/
def signed (value : UInt8) : Int :=
  if 128 ≤ value.toNat then value.toNat - 256 else value.toNat

/-- The number has no room in a byte with a sign. -/
def overflows (n : Int) : Bool := n < -128 || 127 < n

/-- Bit `i` of a byte, counted from the lowest. -/
def bitOf (value : UInt8) (i : Nat) : Bool := value.toNat.testBit i

/-- Zero and negative by a result, and the other flags as they were. -/
def Flags.judgedBy (f : Flags) (result : UInt8) : Flags :=
  { f with zero := result.toNat = 0, negative := bitOf result 7 }

theorem toNat_byte (n : Int) : ((byte n).toNat : Int) = n % 256 := by
  rw [byte, UInt8.toNat_ofNat']
  omega

theorem byte_toNat (value : UInt8) : byte value.toNat = value := by
  have := value.toNat_lt
  have hvalue := toNat_byte value.toNat
  rw [← UInt8.toNat_inj]
  omega

/-- A byte is `byte n` once its number is that of `n` modulo 256. -/
theorem eq_byte {value : UInt8} {n : Int} (h : (value.toNat : Int) = n % 256) : value = byte n := by
  have hbyte := toNat_byte n
  rw [← UInt8.toNat_inj]
  omega

theorem signBit_eq_decide (value : UInt8) : signBit value = decide (128 ≤ value.toNat) := by
  rw [signBit, decide_eq_decide]
  exact UInt8.le_iff_toNat_le

theorem signBit_eq (value : UInt8) : signBit value = bitOf value 7 := by
  have := value.toNat_lt
  rw [signBit_eq_decide, bitOf, Nat.testBit_eq_decide_div_mod_eq, decide_eq_decide]
  omega

theorem masked_eq_signBit (value : UInt8) : (value &&& 0x80 != 0) = signBit value := by
  rw [signBit_eq]
  exact masked_eq_testBit value 7

theorem signBit_and (a m : UInt8) : signBit (a &&& m) = (signBit a && signBit m) := by
  rw [signBit_eq, signBit_eq, signBit_eq, bitOf, UInt8.toNat_and, Nat.testBit_and, bitOf, bitOf]

theorem signBit_xor (a m : UInt8) : signBit (a ^^^ m) = (signBit a != signBit m) := by
  rw [signBit_eq, signBit_eq, signBit_eq, bitOf, UInt8.toNat_xor, Nat.testBit_xor, bitOf, bitOf]

theorem signBit_not (a : UInt8) : signBit (~~~a) = !signBit a := by
  have := a.toNat_lt
  have hsize : UInt8.size = 256 := rfl
  rw [signBit_eq_decide, signBit_eq_decide, UInt8.toNat_not, ← decide_not, decide_eq_decide]
  omega

theorem forResult_eq (f : Flags) (result : UInt8) : f.forResult result = f.judgedBy result := by
  have hzero : (result == 0) = decide (result.toNat = 0) := by
    rw [Bool.beq_eq_decide_eq, decide_eq_decide, ← UInt8.toNat_inj]
    rfl
  rw [Flags.forResult, Flags.judgedBy, signBit_eq, hzero]

namespace Alu

variable (f : Flags) (a m value : UInt8)

theorem passing_eq : passing f value = (value, f.judgedBy value) := by
  rw [passing, forResult_eq]

/-! ## Sums and differences -/

/-- The overflow of a sum as signs: those of the operands agree, and the result has the other. -/
theorem add_overflow_eq_signs (sum : UInt8) :
    (~~~(a ^^^ m) &&& (a ^^^ sum) &&& 0x80 != 0) =
      (signBit a == signBit m && signBit a != signBit sum) := by
  rw [masked_eq_signBit, signBit_and, signBit_not, signBit_xor, signBit_xor]
  cases signBit a <;> cases signBit m <;> rfl

/-- The overflow of a difference as signs: those of the operands differ, and the result does not
have the first. -/
theorem subtract_overflow_eq_signs (difference : UInt8) :
    ((a ^^^ m) &&& (a ^^^ difference) &&& 0x80 != 0) =
      (signBit a != signBit m && signBit a != signBit difference) := by
  rw [masked_eq_signBit, signBit_and, signBit_xor, signBit_xor]

/-- Operands of one sign and a result of the other: the sum has left the signed range. -/
theorem add_overflow {sum : UInt8}
    (hsum : sum.toNat = (a.toNat + m.toNat + f.carry.toNat) % 256) :
    (~~~(a ^^^ m) &&& (a ^^^ sum) &&& 0x80 != 0) =
      overflows (signed a + signed m + f.carry.toNat) := by
  have ha := a.toNat_lt
  have hm := m.toNat_lt
  have hc := f.carry.toNat_le
  simp only [add_overflow_eq_signs, signBit_eq_decide, overflows, signed]
  by_cases hsa : 128 ≤ a.toNat <;> by_cases hsm : 128 ≤ m.toNat <;>
    by_cases hss : 128 ≤ sum.toNat <;> simp [hsa, hsm, hss] <;> omega

/-- Operands of two signs and a result without that of the first: so has the difference. -/
theorem subtract_overflow {difference : UInt8}
    (hdifference : (difference.toNat : Int) =
      (a.toNat - m.toNat - (1 - f.carry.toNat) : Int) % 256) :
    ((a ^^^ m) &&& (a ^^^ difference) &&& 0x80 != 0) =
      overflows (signed a - signed m - (1 - f.carry.toNat)) := by
  have ha := a.toNat_lt
  have hm := m.toNat_lt
  have hc := f.carry.toNat_le
  simp only [subtract_overflow_eq_signs, signBit_eq_decide, overflows, signed]
  by_cases hsa : 128 ≤ a.toNat <;> by_cases hsm : 128 ≤ m.toNat <;>
    by_cases hsd : 128 ≤ difference.toNat <;> simp [hsa, hsm, hsd] <;> omega

theorem toNat_carry : f.carry.toUInt16.toNat = f.carry.toNat := by cases f.carry <;> rfl

/-- Two bytes and a carry have room in 16 bits. -/
theorem toNat_sum : (a.toUInt16 + m.toUInt16 + f.carry.toUInt16).toNat =
    a.toNat + m.toNat + f.carry.toNat := by
  have ha := a.toNat_lt
  have hm := m.toNat_lt
  have hc := f.carry.toNat_le
  rw [UInt16.toNat_add, UInt16.toNat_add, UInt8.toNat_toUInt16, UInt8.toNat_toUInt16, toNat_carry]
  omega

theorem le_sum_iff : 0x100 ≤ a.toUInt16 + m.toUInt16 + f.carry.toUInt16 ↔
    256 ≤ a.toNat + m.toNat + f.carry.toNat := by
  rw [UInt16.le_iff_toNat_le, toNat_sum]
  rfl

/-- A difference below zero wraps to the upper end of 16 bits. -/
theorem toNat_difference :
    ((a.toUInt16 - m.toUInt16 - (1 - f.carry.toUInt16)).toNat : Int) =
      (a.toNat - m.toNat - (1 - f.carry.toNat) : Int) % 65536 := by
  have ha := a.toNat_lt
  have hm := m.toNat_lt
  have hc := f.carry.toNat_le
  rw [UInt16.toNat_sub, UInt16.toNat_sub, UInt16.toNat_sub, UInt8.toNat_toUInt16,
    UInt8.toNat_toUInt16, toNat_carry, UInt16.toNat_one]
  omega

/-- Bit 8 singled out with a mask. -/
theorem bit8_clear_iff (w : UInt16) : w &&& 0x100 = 0 ↔ w.toNat / 256 % 2 = 0 := by
  have hmask : (w &&& 0x100).toNat = w.toNat &&& 2 ^ 8 := UInt16.toNat_and _ _
  rw [Nat.and_two_pow, Nat.testBit_eq_decide_div_mod_eq] at hmask
  rw [← UInt16.toNat_inj, hmask]
  simp

theorem add_eq :
    add f a m = (byte (a.toNat + m.toNat + f.carry.toNat),
      { f with
        carry := decide ((256 : Int) ≤ a.toNat + m.toNat + f.carry.toNat)
        overflow := overflows (signed a + signed m + f.carry.toNat) : Flags }.judgedBy
          (byte (a.toNat + m.toNat + f.carry.toNat))) := by
  have hsum := toNat_sum f a m
  have hnat : (a.toUInt16 + m.toUInt16 + f.carry.toUInt16).toUInt8.toNat =
      (a.toNat + m.toNat + f.carry.toNat) % 256 := by
    rw [UInt16.toNat_toUInt8, hsum]
  have hbyte : (a.toUInt16 + m.toUInt16 + f.carry.toUInt16).toUInt8 =
      byte (a.toNat + m.toNat + f.carry.toNat) := eq_byte (by omega)
  have hcarry : decide (0x100 ≤ a.toUInt16 + m.toUInt16 + f.carry.toUInt16) =
      decide ((256 : Int) ≤ a.toNat + m.toNat + f.carry.toNat) := by
    rw [decide_eq_decide, le_sum_iff]
    omega
  simp only [add, passing_eq, hcarry]
  rw [add_overflow f a m hnat, hbyte]

theorem subtract_eq :
    subtract f a m = (byte (a.toNat - m.toNat - (1 - f.carry.toNat)),
      { f with
        carry := decide ((0 : Int) ≤ a.toNat - m.toNat - (1 - f.carry.toNat))
        overflow := overflows (signed a - signed m - (1 - f.carry.toNat)) : Flags }.judgedBy
          (byte (a.toNat - m.toNat - (1 - f.carry.toNat)))) := by
  have ha := a.toNat_lt
  have hm := m.toNat_lt
  have hc := f.carry.toNat_le
  have hdifference := toNat_difference f a m
  have hnat :
      ((a.toUInt16 - m.toUInt16 - (1 - f.carry.toUInt16)).toUInt8.toNat : Int) =
        (a.toNat - m.toNat - (1 - f.carry.toNat) : Int) % 256 := by
    rw [UInt16.toNat_toUInt8]
    omega
  have hbyte := eq_byte hnat
  have hcarry : (a.toUInt16 - m.toUInt16 - (1 - f.carry.toUInt16) &&& 0x100 == 0) =
      decide ((0 : Int) ≤ a.toNat - m.toNat - (1 - f.carry.toNat)) := by
    rw [Bool.beq_eq_decide_eq, decide_eq_decide, bit8_clear_iff]
    omega
  simp only [subtract, passing_eq, hcarry]
  rw [subtract_overflow f a m hnat, hbyte]

theorem compare_eq :
    compare f a m = { f with
      carry := decide (m.toNat ≤ a.toNat)
      zero := decide (a.toNat = m.toNat)
      negative := bitOf (byte (a.toNat - m.toNat)) 7 } := by
  have ha := a.toNat_lt
  have hm := m.toNat_lt
  have hnat : ((a - m).toNat : Int) = (a.toNat - m.toNat : Int) % 256 := by
    rw [UInt8.toNat_sub]
    omega
  have hcarry : decide (m ≤ a) = decide (m.toNat ≤ a.toNat) := by
    rw [decide_eq_decide]
    exact UInt8.le_iff_toNat_le
  have hzero : decide ((a - m).toNat = 0) = decide (a.toNat = m.toNat) := by
    rw [decide_eq_decide]
    omega
  rw [compare, forResult_eq, Flags.judgedBy, hcarry, hzero, eq_byte hnat]

/-! ## Bit by bit -/

theorem and_eq : a &&& m = byte (a.toNat &&& m.toNat : Nat) := by
  rw [← UInt8.toNat_and, byte_toNat]

theorem or_eq : a ||| m = byte (a.toNat ||| m.toNat : Nat) := by
  rw [← UInt8.toNat_or, byte_toNat]

theorem xor_eq : a ^^^ m = byte (a.toNat ^^^ m.toNat : Nat) := by
  rw [← UInt8.toNat_xor, byte_toNat]

theorem bitTest_eq :
    bitTest f a m = { f with
      zero := decide (a.toNat &&& m.toNat = 0)
      negative := bitOf m 7
      overflow := bitOf m 6 } := by
  have hzero : (a &&& m == 0) = decide (a.toNat &&& m.toNat = 0) := by
    rw [Bool.beq_eq_decide_eq, decide_eq_decide, ← UInt8.toNat_inj, UInt8.toNat_and]
    rfl
  have hoverflow : (m / 64 % 2 == 1) = bitOf m 6 := by
    rw [Bool.beq_eq_decide_eq, bitOf, Nat.testBit_eq_decide_div_mod_eq, decide_eq_decide,
      ← UInt8.toNat_inj]
    exact Iff.rfl
  rw [bitTest, signBit_eq, hzero, hoverflow]

/-! ## Up and down -/

theorem succ_eq : value + 1 = byte (value.toNat + 1) := by
  refine eq_byte ?_
  rw [UInt8.toNat_add, UInt8.toNat_one]
  omega

theorem pred_eq : value - 1 = byte (value.toNat - 1) := by
  have := value.toNat_lt
  refine eq_byte ?_
  rw [UInt8.toNat_sub, UInt8.toNat_one]
  omega

theorem increment_eq :
    increment f value = (byte (value.toNat + 1), f.judgedBy (byte (value.toNat + 1))) := by
  rw [increment, passing_eq, succ_eq]

theorem decrement_eq :
    decrement f value = (byte (value.toNat - 1), f.judgedBy (byte (value.toNat - 1))) := by
  rw [decrement, passing_eq, pred_eq]

theorem odd_eq : (value % 2 == 1) = bitOf value 0 := by
  rw [Bool.beq_eq_decide_eq, bitOf, Nat.testBit_zero, decide_eq_decide, ← UInt8.toNat_inj]
  exact Iff.rfl

theorem rotateLeft_eq :
    rotateLeft f value = (byte (2 * value.toNat + f.carry.toNat),
      ({ f with carry := bitOf value 7 } : Flags).judgedBy
        (byte (2 * value.toNat + f.carry.toNat))) := by
  have hcarry : f.carry.toUInt8.toNat = f.carry.toNat := by cases f.carry <;> rfl
  have hnat : ((2 * value + f.carry.toUInt8).toNat : Int) =
      (2 * value.toNat + f.carry.toNat : Int) % 256 := by
    rw [UInt8.toNat_add, UInt8.toNat_mul, hcarry, show (2 : UInt8).toNat = 2 from rfl]
    omega
  rw [rotateLeft, passing_eq, signBit_eq, eq_byte hnat]

theorem rotateRight_eq :
    rotateRight f value = (byte (value.toNat / 2 + 128 * f.carry.toNat),
      ({ f with carry := bitOf value 0 } : Flags).judgedBy
        (byte (value.toNat / 2 + 128 * f.carry.toNat))) := by
  have hcarry : f.carry.toUInt8.toNat = f.carry.toNat := by cases f.carry <;> rfl
  have hnat : ((value / 2 + 128 * f.carry.toUInt8).toNat : Int) =
      (value.toNat / 2 + 128 * f.carry.toNat : Int) % 256 := by
    rw [UInt8.toNat_add, UInt8.toNat_mul, UInt8.toNat_div, hcarry,
      show (2 : UInt8).toNat = 2 from rfl, show (128 : UInt8).toNat = 128 from rfl]
    omega
  rw [rotateRight, passing_eq, odd_eq, eq_byte hnat]

theorem shiftLeft_eq :
    shiftLeft f value = (byte (2 * value.toNat),
      ({ f with carry := bitOf value 7 } : Flags).judgedBy (byte (2 * value.toNat))) := by
  have hnat : ((2 * value).toNat : Int) = (2 * value.toNat : Int) % 256 := by
    rw [UInt8.toNat_mul, show (2 : UInt8).toNat = 2 from rfl]
    omega
  rw [shiftLeft, passing_eq, signBit_eq, eq_byte hnat]

theorem shiftRight_eq :
    shiftRight f value = (byte (value.toNat / 2),
      ({ f with carry := bitOf value 0 } : Flags).judgedBy (byte (value.toNat / 2))) := by
  have := value.toNat_lt
  have hnat : ((value / 2).toNat : Int) = (value.toNat / 2 : Int) % 256 := by
    rw [UInt8.toNat_div, show (2 : UInt8).toNat = 2 from rfl]
    omega
  rw [shiftRight, passing_eq, odd_eq, eq_byte hnat]

end Alu

end Challenger1P
