import Challenger1P.Bus.Transaction
import Challenger1P.Mos6502.Registers

/-!
# Addressing modes

How an instruction finds what it works on. Resolving a mode consumes the instruction's operand
bytes and gives the effective address, never the byte there: an immediate operand is the address
of the byte in the instruction, and a relative one is the address branched to. What the
instruction then does at that address is its own affair.
-/

namespace Challenger1P

inductive Mode where
  | implied
  | accumulator
  | immediate
  | zeroPage
  | zeroPageX
  | zeroPageY
  | absolute
  | absoluteX
  | absoluteY
  /-- The address is in the word at the operand. -/
  | indirect
  /-- The address is in the zero-page word at the operand plus X. -/
  | indirectX
  /-- Y is added to the zero-page word at the operand. -/
  | indirectY
  /-- A signed distance from the next instruction. -/
  | relative
  deriving DecidableEq, Repr

/-- How many bytes follow the opcode. -/
def Mode.operandLength : Mode → Nat
  | .implied | .accumulator => 0
  | .immediate | .zeroPage | .zeroPageX | .zeroPageY => 1
  | .indirectX | .indirectY | .relative => 1
  | .absolute | .absoluteX | .absoluteY | .indirect => 2

/-- What an addressing mode hands to an instruction. -/
inductive Operand where
  | none
  | accumulator
  | address (address : UInt16)
  deriving DecidableEq, Repr

/-- The word at an address; the high byte is at the next address, and after the last comes the
first. -/
def readWord (address : UInt16) : Transaction UInt16 := do
  let low ← Transaction.readByte address
  let high ← Transaction.readByte (address + 1)
  return word low high

/-- The word at an address of page zero; its high byte stays in page zero too. -/
def readZeroPageWord (address : UInt8) : Transaction UInt16 := do
  let low ← Transaction.readByte address.toUInt16
  let high ← Transaction.readByte (address + 1).toUInt16
  return word low high

/-- The address that lies a signed byte away from another. -/
def displace (origin : UInt16) (distance : UInt8) : UInt16 :=
  if signBit distance then origin + distance.toUInt16 - 256 else origin + distance.toUInt16

namespace Registers

/-- Fetch the byte at the program counter and move past it. -/
def fetchByte (r : Registers) : Transaction (UInt8 × Registers) := do
  let value ← Transaction.readByte r.pc
  return (value, { r with pc := r.pc + 1 })

/-- Fetch two bytes as a word, low byte first. -/
def fetchWord (r : Registers) : Transaction (UInt16 × Registers) := do
  let (low, r) ← r.fetchByte
  let (high, r) ← r.fetchByte
  return (word low high, r)

/-- Consume the operand bytes of a mode and find the effective address. Indexing within page zero
stays there, and all other sums wrap at the end of memory. -/
def resolve (r : Registers) : Mode → Transaction (Operand × Registers)
  | .implied => return (.none, r)
  | .accumulator => return (.accumulator, r)
  | .immediate => return (.address r.pc, { r with pc := r.pc + 1 })
  | .zeroPage => do
    let (base, r) ← r.fetchByte
    return (.address base.toUInt16, r)
  | .zeroPageX => do
    let (base, r) ← r.fetchByte
    return (.address (base + r.x).toUInt16, r)
  | .zeroPageY => do
    let (base, r) ← r.fetchByte
    return (.address (base + r.y).toUInt16, r)
  | .absolute => do
    let (base, r) ← r.fetchWord
    return (.address base, r)
  | .absoluteX => do
    let (base, r) ← r.fetchWord
    return (.address (base + r.x.toUInt16), r)
  | .absoluteY => do
    let (base, r) ← r.fetchWord
    return (.address (base + r.y.toUInt16), r)
  | .indirect => do
    let (pointer, r) ← r.fetchWord
    let address ← readWord pointer
    return (.address address, r)
  | .indirectX => do
    let (pointer, r) ← r.fetchByte
    let address ← readZeroPageWord (pointer + r.x)
    return (.address address, r)
  | .indirectY => do
    let (pointer, r) ← r.fetchByte
    let address ← readZeroPageWord pointer
    return (.address (address + r.y.toUInt16), r)
  | .relative => do
    let (distance, r) ← r.fetchByte
    return (.address (displace r.pc distance), r)

end Registers

end Challenger1P
