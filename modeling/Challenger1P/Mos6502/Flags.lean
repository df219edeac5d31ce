/-!
# The status register

Eight flags, one `Bool` each, and the byte that the processor pushes for them: carry is bit 0, then
zero, interrupt disable, decimal, break, the bit that is always written as one, overflow, and
negative in bit 7. `ofByte_toByte` and `toByte_ofByte` say that the two forms are interchangeable.
-/

namespace Challenger1P

structure Flags where
  carry : Bool := false
  zero : Bool := false
  interruptDisable : Bool := false
  /-- Kept, and without effect: arithmetic is binary. -/
  decimal : Bool := false
  /-- Set in the copy that a software interrupt pushes. -/
  software : Bool := false
  /-- The unused bit, which reads as one after a reset and after every pull of the register. -/
  always : Bool := false
  overflow : Bool := false
  negative : Bool := false
  deriving DecidableEq, Repr, Inhabited

/-- Bit 7 of a byte, which is its sign as a two's complement number. -/
def signBit (value : UInt8) : Bool := 0x80 ≤ value

namespace Flags

def toByte (f : Flags) : UInt8 :=
  f.carry.toUInt8 + 2 * f.zero.toUInt8 + 4 * f.interruptDisable.toUInt8 + 8 * f.decimal.toUInt8 +
    16 * f.software.toUInt8 + 32 * f.always.toUInt8 + 64 * f.overflow.toUInt8 +
    128 * f.negative.toUInt8

def ofByte (value : UInt8) : Flags where
  carry := value % 2 == 1
  zero := value / 2 % 2 == 1
  interruptDisable := value / 4 % 2 == 1
  decimal := value / 8 % 2 == 1
  software := value / 16 % 2 == 1
  always := value / 32 % 2 == 1
  overflow := value / 64 % 2 == 1
  negative := value / 128 == 1

/-- Zero and negative as a result asks for them, the other flags as they were. -/
def forResult (f : Flags) (result : UInt8) : Flags :=
  { f with zero := result == 0, negative := signBit result }

theorem ofByte_toByte (f : Flags) : ofByte f.toByte = f := by
  obtain ⟨c, z, i, d, b, u, v, n⟩ := f
  revert c z i d b u v n
  decide +kernel

theorem toByte_ofByte (value : UInt8) : (ofByte value).toByte = value := by
  have h : ∀ n : Fin 256, (ofByte (UInt8.ofNat n.val)).toByte = UInt8.ofNat n.val := by
    decide +kernel
  simpa using h ⟨value.toNat, value.toNat_lt⟩

end Flags

end Challenger1P
