import Challenger1P.Mos6502.Instruction

/-!
# The processor

Registers, a cycle counter and a bus, stepped one instruction at a time until something stops it.
`Registers.instruction` is a whole instruction as a transaction: fetch, decode, resolve, execute.
`Cpu.step` carries one out and charges its cost; once stopped, a processor does nothing until it is
reset. Why it is stopped is one field here; `LatchedCpu` has the two that a halt is stored in.

An instruction that completes costs at least one cycle (`instruction_cost_pos`), so a step either
stops the processor or moves its counter on (`cycles_lt_step`).
-/

namespace Challenger1P

/-- Where a reset finds the address of the first instruction. -/
def resetVector : UInt16 := 0xFFFC

/-- One instruction: the registers after it, and what it cost or why it was not completed. One
that is not completed has only moved the program counter, past the bytes it consumed. -/
def Registers.instruction (r : Registers) : Transaction (Registers × Except Stop Nat) := do
  let (opcode, fetched) ← r.fetchByte
  match decode opcode with
  | none => return (fetched, .error (.fault (.invalidOpcode opcode r.pc)))
  | some op =>
    let (operand, resolved) ← fetched.resolve op.mode
    match ← resolved.execute op.mnemonic operand with
    | .ok (final, extra) => return (final, .ok (op.cycles + extra))
    | .error stop => return (resolved, .error stop)

structure Cpu (β : Type) where
  registers : Registers := {}
  /-- Cycles spent since the last reset. -/
  cycles : UInt64 := 0
  bus : β
  /-- Why it executes nothing more, if it does not. -/
  stop : Option Stop := none

namespace Cpu

variable {β : Type}

def fault (c : Cpu β) : Option Fault :=
  match c.stop with
  | some (.fault cause) => some cause
  | _ => none

def halted (c : Cpu β) : Bool := c.fault.isSome

/-- Add an instruction's cost to the counter, or stop where it has no room. -/
def charge (c : Cpu β) (cost : Nat) : Cpu β :=
  if c.cycles.toNat + cost < UInt64.size then
    { c with cycles := c.cycles + UInt64.ofNat cost }
  else { c with stop := some .counterFull }

/-- With room for the cost, charging adds it. -/
theorem toNat_cycles_charge {c : Cpu β} {cost : Nat} (h : c.cycles.toNat + cost < UInt64.size) :
    (c.charge cost).cycles.toNat = c.cycles.toNat + cost := by
  rw [charge, if_pos h]
  show (c.cycles + UInt64.ofNat cost).toNat = _
  have hsize : UInt64.size = 18446744073709551616 := rfl
  rw [UInt64.toNat_add, UInt64.toNat_ofNat']
  omega

/-- Charging leaves the processor running only where there is room. -/
theorem charge_stop_eq_none {c : Cpu β} {cost : Nat} (h : (c.charge cost).stop = none) :
    c.cycles.toNat + cost < UInt64.size := by
  rw [charge] at h
  split at h
  · assumption
  · cases h

variable [Bus β]

def onBus {α : Type} (c : Cpu β) (t : Transaction α) : α × Cpu β :=
  match c with
  | { registers, cycles, bus, stop } =>
    match t.run bus with
    | (result, bus) => (result, { registers, cycles, bus, stop })

/-- Start over: registers as the hardware leaves them, the program counter from the reset vector,
the counter at zero, and nothing stopped. -/
def reset (c : Cpu β) : Cpu β :=
  match (readWord resetVector).run c.bus with
  | (pc, bus) =>
    { registers := { sp := 0xFD, pc, flags := { interruptDisable := true, always := true } }, bus }

/-- A processor on a bus, just reset. -/
def powerOn (bus : β) : Cpu β := reset { bus }

/-- Execute one instruction, unless stopped. -/
def step (c : Cpu β) : Cpu β :=
  match c with
  | { registers, cycles, bus, stop := none } =>
    match registers.instruction.run bus with
    | ((registers, .ok cost), bus) => { registers, cycles, bus : Cpu β }.charge cost
    | ((registers, .error stop), bus) => { registers, cycles, bus, stop }
  | stopped => stopped

/-- Execute up to `count` instructions, fewer if something stops the processor. -/
def steps : (count : Nat) → Cpu β → Cpu β
  | 0, c => c
  | count + 1, c => steps count c.step

/-- Execute one instruction on an operand that is already resolved, outside the program: nothing is
charged, and a refusal stops nothing. -/
def execute (c : Cpu β) (mnemonic : Mnemonic) (operand : Operand) : Except Stop Nat × Cpu β :=
  match c.onBus (c.registers.execute mnemonic operand) with
  | (.ok (registers, extra), c) => (.ok extra, { c with registers })
  | (.error stop, c) => (.error stop, c)

def push (c : Cpu β) (values : List UInt8) : Except Fault Unit × Cpu β :=
  match c.onBus (c.registers.push values) with
  | (.ok registers, c) => (.ok (), { c with registers })
  | (.error fault, c) => (.error fault, c)

def pull (c : Cpu β) (count : Nat) : Except Fault (Vector UInt8 count) × Cpu β :=
  match c.onBus (c.registers.pull count) with
  | (.ok (values, registers), c) => (.ok values, { c with registers })
  | (.error fault, c) => (.error fault, c)

/-! ## Time passes -/

theorem instruction_cost_pos (r : Registers) :
    r.instruction.Ensures fun result => ∀ cost, result.2 = .ok cost → 0 < cost := by
  refine (Transaction.ensures_true _).bind fun ⟨opcode, fetched⟩ _ => ?_
  cases hop : decode opcode with
  | none => simp [Transaction.Ensures, hop]
  | some op =>
    simp only [hop]
    refine (Transaction.ensures_true _).bind fun ⟨operand, resolved⟩ _ => ?_
    refine (Transaction.ensures_true _).bind fun outcome _ => ?_
    have := op.cycles_pos
    cases outcome <;> simp [Transaction.Ensures]
    omega

/-- A step that leaves the processor running has moved its counter on. -/
theorem cycles_lt_step {c : Cpu β} (h : c.step.stop = none) :
    c.cycles.toNat < c.step.cycles.toNat := by
  obtain ⟨registers, cycles, bus, _ | stop⟩ := c
  · have hcost := (instruction_cost_pos registers).run bus
    simp only [step] at h ⊢
    rcases hrun : registers.instruction.run bus with ⟨⟨after, cost | stop⟩, bus'⟩
    · simp only [hrun] at h
      cases h
    · rw [hrun] at hcost
      have hpos := hcost _ rfl
      simp only [hrun] at h ⊢
      rw [toNat_cycles_charge (charge_stop_eq_none h)]
      show cycles.toNat < cycles.toNat + _
      omega
  · cases h

end Cpu

end Challenger1P
