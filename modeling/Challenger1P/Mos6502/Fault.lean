import Challenger1P.Text.Hex

/-!
# Why the processor stops

A `Fault` is the running program's doing: an opcode that no instruction has, or a stack with too
little room or too little on it. A `Stop` is any reason why a processor executes nothing more; the
two besides a fault are ends of the emulation that no program can cause by its instructions alone.
-/

namespace Challenger1P

/-- What a program did that the processor halts on. -/
inductive Fault where
  /-- The byte at `address` is no documented opcode. -/
  | invalidOpcode (opcode : UInt8) (address : UInt16)
  /-- `bytes` bytes were to be pushed and the stack has room for fewer. -/
  | stackOverflow (sp : UInt8) (bytes : Nat)
  /-- `bytes` bytes were to be pulled and the stack holds fewer. -/
  | stackUnderflow (sp : UInt8) (bytes : Nat)
  deriving DecidableEq, Repr

def Fault.message : Fault → String
  | .invalidOpcode opcode address => s!"invalid opcode ${byteHex opcode} at ${wordHex address}"
  | .stackOverflow sp bytes => s!"stack overflow pushing {bytes} byte(s) with SP=${byteHex sp}"
  | .stackUnderflow sp bytes => s!"stack underflow popping {bytes} byte(s) with SP=${byteHex sp}"

/-- Why a processor executes nothing more. -/
inductive Stop where
  /-- It halted. -/
  | fault (cause : Fault)
  /-- An instruction that needs an address was given an operand that has none. -/
  | noAddress
  /-- The 64-bit cycle counter has no room for the instruction's cost. -/
  | counterFull
  deriving DecidableEq, Repr

end Challenger1P
