import Challenger1P.Mos6502.Registers

/-!
# Arithmetic and logic

What the instructions compute, as functions of the flags and the bytes they take. Sums and
differences are taken in 16 bits, where bit 8 has the carry or the borrow. Every function leaves the
flags it does not name as they were.
-/

namespace Challenger1P.Alu

/-- Put the zero and negative flags for a result beside it. -/
def passing (f : Flags) (result : UInt8) : UInt8 × Flags := (result, f.forResult result)

/-- `a + m + carry`. Overflow is set when both operands have one sign and the result the other. -/
def add (f : Flags) (a m : UInt8) : UInt8 × Flags :=
  let sum := a.toUInt16 + m.toUInt16 + f.carry.toUInt16
  let result := sum.toUInt8
  let overflow := ~~~(a ^^^ m) &&& (a ^^^ result) &&& 0x80 != 0
  passing { f with carry := 0x100 ≤ sum, overflow := overflow } result

/-- `a - m`, and one less when carry is clear. Carry is set when nothing had to be borrowed,
overflow when the operands differ in sign and the result does not have the sign of `a`. -/
def subtract (f : Flags) (a m : UInt8) : UInt8 × Flags :=
  let difference := a.toUInt16 - m.toUInt16 - (1 - f.carry.toUInt16)
  let result := difference.toUInt8
  let overflow := (a ^^^ m) &&& (a ^^^ result) &&& 0x80 != 0
  -- A difference below zero wraps, and has bit 8 set like every other high bit.
  passing { f with carry := difference &&& 0x100 == 0, overflow := overflow } result

/-- The flags of `left - m` without a borrow; the difference itself is not kept. -/
def compare (f : Flags) (left m : UInt8) : Flags :=
  { f with carry := m ≤ left }.forResult (left - m)

/-- Zero says whether `a` and `m` share a set bit; negative and overflow copy bits 7 and 6 of `m`. -/
def bitTest (f : Flags) (a m : UInt8) : Flags :=
  { f with zero := a &&& m == 0, negative := signBit m, overflow := m / 64 % 2 == 1 }

/-- Doubled: every bit moves up, bit 7 into carry. -/
def shiftLeft (f : Flags) (value : UInt8) : UInt8 × Flags :=
  passing { f with carry := signBit value } (2 * value)

/-- Halved: every bit moves down, bit 0 into carry. -/
def shiftRight (f : Flags) (value : UInt8) : UInt8 × Flags :=
  passing { f with carry := value % 2 == 1 } (value / 2)

/-- Doubled, with carry as the new bit 0. -/
def rotateLeft (f : Flags) (value : UInt8) : UInt8 × Flags :=
  passing { f with carry := signBit value } (2 * value + f.carry.toUInt8)

/-- Halved, with carry as the new bit 7. -/
def rotateRight (f : Flags) (value : UInt8) : UInt8 × Flags :=
  passing { f with carry := value % 2 == 1 } (value / 2 + 128 * f.carry.toUInt8)

/-- One more, after 255 comes 0. -/
def increment (f : Flags) (value : UInt8) : UInt8 × Flags := passing f (value + 1)

/-- One less, before 0 comes 255. -/
def decrement (f : Flags) (value : UInt8) : UInt8 × Flags := passing f (value - 1)

end Challenger1P.Alu
