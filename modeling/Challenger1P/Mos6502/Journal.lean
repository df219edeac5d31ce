import Challenger1P.Journal
import Challenger1P.Mos6502.Cpu

/-!
# What the processor reports

A trace line for each instruction that decodes, with the registers before it; a warning when a
fault halts the processor; and the address it starts at after a reset.
-/

namespace Challenger1P.Cpu

variable {β : Type}

/-- The trace line for an opcode about to be executed. -/
def traceRecord (c : Cpu β) (opcode : UInt8) : Record :=
  let r := c.registers
  let place := s!"{wordHex r.pc}  {byteHex opcode}        A:{byteHex r.a} X:{byteHex r.x}"
  let status := s!"Y:{byteHex r.y} P:{byteHex r.flags.toByte} SP:{byteHex r.sp}"
  ⟨.trace, s!"{place} {status} CYC:{c.cycles}"⟩

def resetRecord (c : Cpu β) : Record := ⟨.debug, s!"reset: pc=${wordHex c.registers.pc}"⟩

def faultRecord (fault : Fault) : Record := ⟨.warning, s!"CPU halted: {fault.message}"⟩

variable [Bus β]

/-- What the next step reports. -/
def stepRecords (c : Cpu β) : List Record :=
  if c.stop.isSome then []
  else
    let opcode := (Bus.read c.bus c.registers.pc).1
    let traced := if (decode opcode).isSome then [c.traceRecord opcode] else []
    traced ++ (c.step.fault.map faultRecord).toList

/-- What the next `count` steps report, behind the records so far. -/
def stepsRecords : (count : Nat) → Cpu β → Array Record → Array Record
  | 0, _, records => records
  | count + 1, c, records => stepsRecords count c.step (records ++ c.stepRecords)

end Challenger1P.Cpu
