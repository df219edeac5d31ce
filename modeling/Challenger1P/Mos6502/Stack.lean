import Challenger1P.Mos6502.Fault
import Challenger1P.Mos6502.Mode

/-!
# The stack

Page one, growing down from `$01FF`. The stack pointer counts the free bytes below: with pointer
`sp` the bytes on the stack are those after `$0100 + sp`. A push or pull that does not fit as a
whole fails before it touches anything.
-/

namespace Challenger1P

/-- Where the stack pointer points. -/
def stackAddress (sp : UInt8) : UInt16 := 0x0100 + sp.toUInt16

/-- Write bytes downwards from the stack pointer and give the pointer below them. -/
def writeDown (sp : UInt8) : List UInt8 → Transaction UInt8
  | [] => return sp
  | value :: rest => do
    Transaction.writeByte (stackAddress sp) value
    writeDown (sp - 1) rest

/-- Read bytes upwards from the stack pointer and give the pointer at the last of them. -/
def readUp (sp : UInt8) : (count : Nat) → Transaction (Vector UInt8 count × UInt8)
  | 0 => return (#v[], sp)
  | count + 1 => do
    let (values, sp) ← readUp sp count
    let value ← Transaction.readByte (stackAddress (sp + 1))
    return (values.push value, sp + 1)

namespace Registers

/-- Push bytes, the first one first. -/
def push (r : Registers) (values : List UInt8) : Transaction (Except Fault Registers) :=
  if r.sp.toNat < values.length then
    return .error (.stackOverflow r.sp values.length)
  else do
    let sp ← writeDown r.sp values
    return .ok { r with sp }

/-- Pull bytes, the last one pushed first. -/
def pull (r : Registers) (count : Nat) :
    Transaction (Except Fault (Vector UInt8 count × Registers)) :=
  if 0xFF < r.sp.toNat + count then
    return .error (.stackUnderflow r.sp count)
  else do
    let (values, sp) ← readUp r.sp count
    return .ok (values, { r with sp })

end Registers

end Challenger1P
