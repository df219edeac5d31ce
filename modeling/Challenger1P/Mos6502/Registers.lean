import Challenger1P.Mos6502.Flags

/-!
# The registers

The register file of the processor, and 16-bit words as the two bytes that memory holds of them,
low byte first.
-/

namespace Challenger1P

/-- The word whose bytes are `low` and `high`. -/
def word (low high : UInt8) : UInt16 := low.toUInt16 + 256 * high.toUInt16

def lowByte (w : UInt16) : UInt8 := w.toUInt8

def highByte (w : UInt16) : UInt8 := (w / 256).toUInt8

theorem word_lowByte_highByte (w : UInt16) : word (lowByte w) (highByte w) = w := by
  have := w.toNat_lt
  rw [← UInt16.toNat_inj]
  simp [word, lowByte, highByte]
  omega

structure Registers where
  a : UInt8 := 0
  x : UInt8 := 0
  y : UInt8 := 0
  /-- The stack is page one, from the address after `$0100 + sp` up, and grows down. -/
  sp : UInt8 := 0
  /-- The address of the next byte to fetch. -/
  pc : UInt16 := 0
  flags : Flags := {}
  deriving DecidableEq, Repr, Inhabited

/-- The registers that instructions load, store, compare and count with. -/
inductive Register where
  | a
  | x
  | y
  deriving DecidableEq, Repr

namespace Registers

def get (r : Registers) : Register → UInt8
  | .a => r.a
  | .x => r.x
  | .y => r.y

def set (r : Registers) : Register → UInt8 → Registers
  | .a, value => { r with a := value }
  | .x, value => { r with x := value }
  | .y, value => { r with y := value }

/-- Put a result into a register, and its zero and negative flags with it. -/
def load (r : Registers) (target : Register) (value : UInt8) : Registers :=
  { r.set target value with flags := r.flags.forResult value }

end Registers

end Challenger1P
