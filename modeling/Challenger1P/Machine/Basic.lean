import Challenger1P.Clock
import Challenger1P.Keyboard.Matrix
import Challenger1P.Mos6502.Run

/-!
# The machine

The processor on the memory map, with the keyboard for its device, and a clock. The machine runs in
ticks: `tick` executes instructions until the clock's budget for one tick is spent or the processor
stops, and gives a copy of the screen if the program wrote to video RAM meanwhile.
-/

namespace Challenger1P

/-- A machine that is switched on. -/
structure Machine where
  cpu : Cpu (MemoryMap Keyboard)
  clock : Clock
  /-- The cycles that one tick may spend. -/
  budget : UInt64
  budget_eq : clock.budget = some budget

inductive TickOutcome where
  /-- The budget is spent. If video RAM was written, this is what it holds now. -/
  | running (cycles : Nat) (screen : Option Screen)
  /-- The processor has halted. -/
  | halted
  /-- The processor has stopped for another reason. -/
  | broken

namespace Machine

/-- Switch a machine on, if its clock has a budget. -/
def powerOn (memory : MemoryMap Keyboard) (clock : Clock) : Option Machine :=
  match h : clock.budget with
  | some budget => some { cpu := Cpu.powerOn memory, clock, budget, budget_eq := h }
  | none => none

def memory (m : Machine) : MemoryMap Keyboard := m.cpu.bus

def keyboard (m : Machine) : Keyboard := m.cpu.bus.device

/-- Change the machine's memory from outside. -/
def mapMemory (m : Machine) (f : MemoryMap Keyboard → MemoryMap Keyboard) : Machine :=
  match m with
  | { cpu := { registers, cycles, bus, stop }, clock, budget, budget_eq } =>
    { cpu := { registers, cycles, bus := f bus, stop }, clock, budget, budget_eq }

/-- Change the machine's keyboard from outside. -/
def mapKeyboard (m : Machine) (f : Keyboard → Keyboard) : Machine :=
  m.mapMemory fun { store, screenWritten, device } => { store, screenWritten, device := f device }

/-- Execute the instructions of one tick, at least one: how many steps that takes, and the machine
after them. -/
def spend (m : Machine) : Nat × Machine :=
  match m.mapMemory MemoryMap.clearScreenWritten with
  | { cpu, clock, budget, budget_eq } =>
    match cpu.spend budget.toNat with
    | (made, cpu) => (made, { cpu, clock, budget, budget_eq })

/-- The outcome of a tick that began at cycle `start`, from the machine after it. -/
def outcomeSince (m : Machine) (start : Nat) : TickOutcome :=
  match m.cpu.stop with
  | some (.fault _) => .halted
  | some _ => .broken
  | none =>
    let screen := if m.memory.screenWritten then some m.memory.screen else none
    .running (m.cpu.cycles.toNat - start) screen

def tick (m : Machine) : TickOutcome × Machine :=
  let start := m.cpu.cycles.toNat
  let (_, m) := m.spend
  (m.outcomeSince start, m)

end Machine

end Challenger1P
