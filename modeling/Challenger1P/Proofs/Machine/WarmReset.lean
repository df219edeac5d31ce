import Challenger1P.Machine.Boot
import Challenger1P.Proofs.Machine.Observation
import Challenger1P.Proofs.Memory.Map

/-!
# Warm resets

Nothing that is done with a machine changes the bytes of its read-only memory, once it is booted
(`sameRom_uses`). The reset vector is there, so a reset at any later time puts the processor into
the state that it booted in.

* `Booted`: a machine just reset with its memory in place.
* `Use`: everything that can be done with it then.
* `reset_eq`: what a reset does, which depends on two bytes and changes none.
-/

namespace Challenger1P

/-! ## The processor -/

namespace Cpu

variable {δ : Type} [Device δ]

theorem sameRom_step (c : Cpu (MemoryMap δ)) : c.bus.SameRom c.step.bus := by
  cases h : c.stop with
  | none =>
    rw [bus_step h]
    exact MemoryMap.sameRom_run _ _
  | some stop =>
    rw [step_of_stopped (by simp [h])]
    exact MemoryMap.SameRom.refl _

theorem sameRom_steps (c : Cpu (MemoryMap δ)) (count : Nat) : c.bus.SameRom (c.steps count).bus := by
  induction count generalizing c with
  | zero => exact MemoryMap.SameRom.refl _
  | succ count ih => exact (sameRom_step c).trans (ih c.step)

theorem sameRom_onBus {α : Type} (c : Cpu (MemoryMap δ)) (t : Transaction α) :
    c.bus.SameRom (c.onBus t).2.bus := MemoryMap.sameRom_run t c.bus

theorem sameRom_execute (c : Cpu (MemoryMap δ)) (mnemonic : Mnemonic) (operand : Operand) :
    c.bus.SameRom (c.execute mnemonic operand).2.bus := by
  have h := sameRom_onBus c (c.registers.execute mnemonic operand)
  unfold execute
  split <;> rename_i hrun <;> rw [hrun] at h <;> exact h

theorem sameRom_push (c : Cpu (MemoryMap δ)) (values : List UInt8) :
    c.bus.SameRom (c.push values).2.bus := by
  have h := sameRom_onBus c (c.registers.push values)
  unfold push
  split <;> rename_i hrun <;> rw [hrun] at h <;> exact h

theorem sameRom_pull (c : Cpu (MemoryMap δ)) (count : Nat) :
    c.bus.SameRom (c.pull count).2.bus := by
  have h := sameRom_onBus c (c.registers.pull count)
  unfold pull
  split <;> rename_i hrun <;> rw [hrun] at h <;> exact h

/-- A reset sets every register, the program counter from the bytes at `$FFFC` and `$FFFD`. It reads
nothing else, and what it reads is no device. -/
theorem reset_eq (c : Cpu (MemoryMap δ)) :
    c.reset =
      { registers :=
          { sp := 0xFD, pc := word (c.bus.store.get 0xFFFC) (c.bus.store.get 0xFFFD)
            flags := { interruptDisable := true, always := true } }
        bus := c.bus } := by
  have hlow : Bus.read c.bus 0xFFFC = (c.bus.store.get 0xFFFC, c.bus) :=
    MemoryMap.read_of_ne_device (by decide)
  have hhigh : Bus.read c.bus 0xFFFD = (c.bus.store.get 0xFFFD, c.bus) :=
    MemoryMap.read_of_ne_device (by decide)
  have hword : (readWord resetVector).run c.bus =
      (word (c.bus.store.get 0xFFFC) (c.bus.store.get 0xFFFD), c.bus) := by
    simp [readWord, resetVector, Transaction.run, hlow, hhigh]
  rw [reset, hword]

end Cpu

/-! ## The machine -/

namespace Machine

/-- Reset the processor. -/
def reset (m : Machine) : Machine := { m with cpu := m.cpu.reset }

theorem sameRom_tick (m : Machine) : m.memory.SameRom m.tick.2.memory := by
  have hsteps := (m.cleared.cpu.spend_eq_steps m.budget.toNat).2
  rw [tick_eq, spend_eq, memory, memory, hsteps]
  exact Cpu.sameRom_steps m.cleared.cpu _

variable {σ : Type} [Host σ]

theorem sameRom_poll (m : Machine) (host : σ) : m.memory.SameRom (m.poll host).2.1.memory :=
  fun _ _ => rfl

theorem sameRom_run (ticks : Nat) (m : Machine) (host : σ) :
    m.memory.SameRom (m.run ticks host).2.1.memory := by
  induction ticks generalizing m host with
  | zero => exact MemoryMap.SameRom.refl _
  | succ ticks ih =>
    have hpoll := sameRom_poll m host
    rw [run_succ]
    rcases hp : m.poll host with ⟨_ | _, m', host'⟩ <;> rw [hp] at hpoll
    · exact hpoll
    · have htick : m.memory.SameRom (m'.tickFor host').1.memory := by
        rw [tickFor_fst]
        exact hpoll.trans (sameRom_tick m')
      simp only
      split
      · exact htick
      · exact htick
      · exact htick.trans (ih _ _)

end Machine

/-! ## Uses of a machine -/

/-- Blocks put into memory, one after the other. -/
def MemoryMap.installed {δ : Type} (memory : MemoryMap δ) (blocks : List (UInt16 × List UInt8)) :
    MemoryMap δ :=
  blocks.foldl (fun memory (base, block) => memory.install base block) memory

/-- A machine that is just reset, with its memory in place. -/
inductive Booted : Machine → Prop where
  /-- Switched on with this memory. -/
  | powerOn {memory : MemoryMap Keyboard} {clock : Clock} {m : Machine}
    (h : Machine.powerOn memory clock = some m) : Booted m
  /-- Blocks are put into the memory of any machine, and it is reset. -/
  | install (m : Machine) (blocks : List (UInt16 × List UInt8)) :
    Booted (m.mapMemory (·.installed blocks)).reset
  /-- Images are loaded into any machine. -/
  | load {m booted : Machine} {source : Rom.Source} {images : List Rom.Image}
    (h : m.boot source images = .ok booted) : Booted booted

/-- What can be done with a machine, short of putting blocks or images into its memory. -/
inductive Use : Type 1 where
  | step
  | tick
  /-- Run inside of a host, for at most so many ticks. -/
  | run {σ : Type} [Host σ] (host : σ) (ticks : Nat)
  | key (event : KeyEvent)
  | read (address : UInt16)
  | write (address : UInt16) (value : UInt8)
  /-- Put these values into the registers. -/
  | registers (registers : Registers)
  | execute (mnemonic : Mnemonic) (operand : Operand)
  | push (values : List UInt8)
  | pull (count : Nat)
  | reset

namespace Machine

/-- The machine after a use. -/
def use (m : Machine) : Use → Machine
  | .step => m.step
  | .tick => m.tick.2
  | @Use.run _ _ host ticks => (m.run ticks host).2.1
  | .key event => m.mapKeyboard (·.apply event)
  | .read address => m.mapMemory fun memory => (Bus.read memory address).2
  | .write address value => m.mapMemory (Bus.write · address value)
  | .registers registers => { m with cpu := { m.cpu with registers } }
  | .execute mnemonic operand => { m with cpu := (m.cpu.execute mnemonic operand).2 }
  | .push values => { m with cpu := (m.cpu.push values).2 }
  | .pull count => { m with cpu := (m.cpu.pull count).2 }
  | .reset => m.reset

/-- The machine after one use and another. -/
def uses (m : Machine) (list : List Use) : Machine := list.foldl use m

theorem sameRom_use (m : Machine) (kind : Use) : m.memory.SameRom (m.use kind).memory := by
  cases kind with
  | step => exact Cpu.sameRom_step m.cpu
  | tick => exact sameRom_tick m
  | run host ticks => exact sameRom_run ticks m host
  | key event => exact fun _ _ => rfl
  | read address => exact MemoryMap.sameRom_read m.memory address
  | write address value => exact MemoryMap.sameRom_write m.memory address value
  | registers registers => exact MemoryMap.SameRom.refl _
  | execute mnemonic operand => exact Cpu.sameRom_execute m.cpu mnemonic operand
  | push values => exact Cpu.sameRom_push m.cpu values
  | pull count => exact Cpu.sameRom_pull m.cpu count
  | reset =>
    show m.memory.SameRom m.cpu.reset.bus
    rw [Cpu.reset_eq]
    exact MemoryMap.SameRom.refl _

theorem sameRom_uses (m : Machine) (list : List Use) : m.memory.SameRom (m.uses list).memory := by
  induction list generalizing m with
  | nil => exact MemoryMap.SameRom.refl _
  | cons kind list ih => exact (sameRom_use m kind).trans (ih (m.use kind))

end Machine

theorem Booted.exists_reset {m : Machine} (h : Booted m) :
    ∃ c : Cpu (MemoryMap Keyboard), m.cpu = c.reset := by
  cases h with
  | powerOn h =>
    unfold Machine.powerOn at h
    split at h
    · cases h
      exact ⟨_, rfl⟩
    · cases h
  | install m blocks => exact ⟨_, rfl⟩
  | @load m _ source images h =>
    unfold Machine.boot at h
    cases hpopulated : m.populate source images with
    | error failure =>
      rw [hpopulated] at h
      cases h
    | ok populated =>
      rw [hpopulated] at h
      cases h
      exact ⟨_, rfl⟩

/-- Whatever is done with a machine after it is booted, its read-only memory holds what it held
then. So a reset at any later time starts the processor as it was started then, halted or not, and
changes nothing but the processor. -/
theorem every_reset_is_like_the_first {m : Machine} (h : Booted m) (list : List Use) :
    let later := m.uses list
    (∀ address : UInt16, 0x8000 ≤ address ∧ address < 0xD000 ∨ 0xD800 ≤ address →
      later.memory.store.get address = m.memory.store.get address) ∧
    later.reset.cpu = { m.cpu with bus := later.memory } ∧
    later.reset.cpu.halted = false ∧ later.reset.cpu.fault = none := by
  intro later
  have hrom : m.memory.SameRom later.memory := Machine.sameRom_uses m list
  obtain ⟨c, hc⟩ := h.exists_reset
  have hreset : later.reset.cpu = { m.cpu with bus := later.memory } := by
    have hbus : m.memory = c.bus := by rw [Machine.memory, hc, Cpu.reset_eq]
    have hlow := hrom 0xFFFC (Or.inr (by decide))
    have hhigh := hrom 0xFFFD (Or.inr (by decide))
    rw [hbus] at hlow hhigh
    show later.cpu.reset = _
    rw [Cpu.reset_eq, hc, Cpu.reset_eq, ← hlow, ← hhigh]
    rfl
  have hfault : later.reset.cpu.fault = none := by
    rw [hreset, hc, Cpu.reset_eq]
    rfl
  exact ⟨hrom, hreset, by rw [Cpu.halted, hfault]; rfl, hfault⟩

/-- A program that writes to the reset vector and runs into an opcode that no instruction has. -/
theorem every_reset_is_like_the_first_after_a_halt :
    let blank : Machine :=
      { cpu := { bus := { device := {} } }, clock := { rateHz := 2000000 }, budget := 20000
        budget_eq := by decide +kernel }
    let blocks : List (UInt16 × List UInt8) :=
      [(0x0200, [0xA9, 0x12, 0x8D, 0xFC, 0xFF, 0x02]), (0xFFFC, [0x00, 0x02])]
    let m := (blank.mapMemory (·.installed blocks)).reset
    let halting : List Use := [.step, .step, .write 0xFFFD 0x12, .step]
    let later := m.uses (halting ++ [.key (.press .control), .tick, .run ({ polls := [[]] } : Script) 3])
    Booted m ∧ (m.uses halting).cpu.halted = true ∧
      later.memory.store.get 0xFFFC = 0 ∧ later.reset.cpu.registers.pc = 0x0200 ∧
      later.reset.cpu.halted = false := by
  intro blank blocks m halting later
  have hbooted : Booted m := .install blank blocks
  have hvector : m.memory.store.get 0xFFFC = 0 := by decide +kernel
  have hpc : m.cpu.registers.pc = 0x0200 := by decide +kernel
  obtain ⟨hrom, hreset, hrunning, -⟩ := every_reset_is_like_the_first hbooted
    (halting ++ [.key (.press .control), .tick, .run ({ polls := [[]] } : Script) 3])
  refine ⟨hbooted, by decide +kernel, (hrom 0xFFFC (Or.inr (by decide))).trans hvector, ?_, hrunning⟩
  rw [hreset]
  exact hpc

end Challenger1P
