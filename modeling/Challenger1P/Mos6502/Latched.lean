import Challenger1P.Mos6502.Cpu

/-!
# The processor as it is stored

A halt is two fields: a latch that steps look at, and the fault for whoever asks. `jam` sets both,
a reset clears both, and a step looks at the first only.

`cpu` is the processor that this is, which has one field for both. A step that the emulation does
not survive has no state after it (`none`).
-/

namespace Challenger1P

structure LatchedCpu (β : Type) where
  registers : Registers := {}
  cycles : UInt64 := 0
  bus : β
  halted : Bool := false
  fault : Option Fault := none

namespace LatchedCpu

variable {β : Type}

def jam (c : LatchedCpu β) (cause : Fault) : LatchedCpu β :=
  { c with halted := true, fault := some cause }

/-- Add an instruction's cost to the counter, where it has room. -/
def charge? (c : LatchedCpu β) (cost : Nat) : Option (LatchedCpu β) :=
  if c.cycles.toNat + cost < UInt64.size then
    some { c with cycles := c.cycles + UInt64.ofNat cost }
  else none

/-- The processor that this is. -/
def cpu (c : LatchedCpu β) : Cpu β where
  registers := c.registers
  cycles := c.cycles
  bus := c.bus
  stop := c.fault.map .fault

variable [Bus β]

def reset (c : LatchedCpu β) : LatchedCpu β :=
  let (pc, bus) := (readWord resetVector).run c.bus
  let flags : Flags := { interruptDisable := true, always := true }
  { registers := { sp := 0xFD, pc, flags }, cycles := 0, bus, halted := false, fault := none }

def powerOn (bus : β) : LatchedCpu β := reset { bus }

/-- Execute one instruction, unless halted. -/
def step? (c : LatchedCpu β) : Option (LatchedCpu β) :=
  if c.halted then some c
  else
    let done := c.registers.instruction.run c.bus
    let c := { c with registers := done.1.1, bus := done.2 }
    match done.1.2 with
    | .ok cost => c.charge? cost
    | .error (.fault cause) => some (c.jam cause)
    | .error .noAddress | .error .counterFull => none

end LatchedCpu

end Challenger1P
