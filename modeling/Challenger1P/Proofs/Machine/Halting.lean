import Challenger1P.Proofs.Machine.Observation
import Challenger1P.Proofs.Mos6502.Faults

/-!
# A fault is the end

A processor that has halted stays as it is until it is reset: steps, ticks and runs leave its
registers, its counter, the fault and all of memory alone, do nothing to the bus and show the host
nothing (`Session.calls_of_halted`). Together with what a faulting step does and leaves undone, this
is `faults_are_atomic_and_final`.
-/

namespace Challenger1P

namespace Cpu

variable {β : Type}

theorem halted_iff {c : Cpu β} : c.halted = true ↔ ∃ cause, c.stop = some (.fault cause) := by
  unfold halted fault
  rcases c.stop with _ | ⟨cause⟩ | _ | _ <;> simp

theorem stop_ne_none_of_halted {c : Cpu β} (h : c.halted = true) : c.stop ≠ none := by
  obtain ⟨cause, hstop⟩ := halted_iff.1 h
  simp [hstop]

variable [Bus β]

theorem spend_of_stopped {c : Cpu β} (h : c.stop ≠ none) (budget : Nat) :
    c.spend budget = (1, c) := by
  rw [spend, spendUntil, step_of_stopped h]
  simp [h]

end Cpu

namespace Machine

/-- The two machines differ in nothing but keyboard and the note that the screen was written. -/
structure Frozen (before after : Machine) : Prop where
  registers_eq : after.cpu.registers = before.cpu.registers
  cycles_eq : after.cpu.cycles = before.cpu.cycles
  stop_eq : after.cpu.stop = before.cpu.stop
  store_eq : after.memory.store = before.memory.store

theorem Frozen.trans {m₁ m₂ m₃ : Machine} (h : Frozen m₁ m₂) (h' : Frozen m₂ m₃) :
    Frozen m₁ m₃ where
  registers_eq := h'.registers_eq.trans h.registers_eq
  cycles_eq := h'.cycles_eq.trans h.cycles_eq
  stop_eq := h'.stop_eq.trans h.stop_eq
  store_eq := h'.store_eq.trans h.store_eq

theorem Frozen.halted {before after : Machine} (h : Frozen before after)
    (hhalted : before.cpu.halted = true) : after.cpu.halted = true := by
  simpa only [Cpu.halted, Cpu.fault, h.stop_eq] using hhalted

variable {σ : Type} [Host σ] {m : Machine}

theorem frozen_poll (m : Machine) (host : σ) : Frozen m (m.poll host).2.1 := ⟨rfl, rfl, rfl, rfl⟩

/-- A tick of a halted machine is one step that does nothing. -/
theorem spend_of_halted (h : m.cpu.halted = true) : m.spend = (1, m.cleared) := by
  have hstop : m.cleared.cpu.stop ≠ none := Cpu.stop_ne_none_of_halted h
  rw [spend_eq, Cpu.spend_of_stopped hstop]
  rfl

theorem outcomeSince_of_halted (h : m.cpu.halted = true) (start : Nat) :
    m.outcomeSince start = .halted := by
  obtain ⟨cause, hstop⟩ := Cpu.halted_iff.1 h
  simp only [outcomeSince, hstop]

theorem tick_of_halted (h : m.cpu.halted = true) : m.tick = (.halted, m.cleared) := by
  have hcleared : m.cleared.cpu.halted = true := h
  rw [tick_eq, spend_of_halted h, outcomeSince_of_halted hcleared]

theorem tickFor_of_halted (h : m.cpu.halted = true) (host : σ) :
    m.tickFor host = (m.cleared, host) := by
  rw [tickFor, tick_of_halted h]

theorem tickAccesses_of_halted (h : m.cpu.halted = true) : m.tickAccesses = [] :=
  Cpu.accesses_of_stopped (c := m.cleared.cpu) (Cpu.stop_ne_none_of_halted h) _

/-- A run of a halted machine is over after one poll at the most. -/
theorem run_of_halted (h : m.cpu.halted = true) (ticks : Nat) (w : Watched σ) :
    Frozen m (m.run ticks w).2.1 ∧ (m.run ticks w).2.2.shown = w.shown ∧
      m.runAccesses ticks w = [] := by
  cases ticks with
  | zero => exact ⟨⟨rfl, rfl, rfl, rfl⟩, rfl, rfl⟩
  | succ ticks =>
    have hpoll : Frozen m (m.poll w).2.1 := frozen_poll m w
    have hshown := (poll_watched m w).2
    rw [run_succ, runAccesses]
    rcases hp : m.poll w with ⟨_ | _, m', w'⟩ <;> rw [hp] at hpoll hshown
    · exact ⟨hpoll, hshown, rfl⟩
    · have hhalted : m'.cpu.halted = true := hpoll.halted h
      simp only [tick_of_halted hhalted, tickFor_of_halted hhalted, tickAccesses_of_halted hhalted]
      exact ⟨hpoll.trans ⟨rfl, rfl, rfl, rfl⟩, hshown, rfl⟩

end Machine

namespace Session

variable {σ : Type} [Host σ] {s : Session σ}

open Machine

theorem call_of_halted (h : s.machine.cpu.halted = true) (call : Call) :
    Frozen s.machine (s.call call).machine ∧ (s.call call).host.shown = s.host.shown ∧
      (s.call call).accesses = s.accesses := by
  have hstop := Cpu.stop_ne_none_of_halted h
  cases call with
  | step =>
    have hstep : (s.call .step).machine.cpu = s.machine.cpu := Cpu.step_of_stopped hstop
    refine ⟨⟨?_, ?_, ?_, ?_⟩, rfl, ?_⟩
    · rw [hstep]
    · rw [hstep]
    · rw [hstep]
    · rw [memory, hstep, memory]
    · simp [Session.call, Cpu.accesses_of_stopped hstop]
  | tick =>
    simp only [Session.call, tickFor_of_halted h, tickAccesses_of_halted h, List.append_nil,
      and_true]
    exact ⟨rfl, rfl, rfl, rfl⟩
  | run ticks =>
    obtain ⟨hfrozen, hshown, haccesses⟩ := run_of_halted h ticks s.host
    refine ⟨hfrozen, hshown, ?_⟩
    simp [Session.call, haccesses]

/-- Nothing but a reset brings a halted machine back. -/
theorem calls_of_halted (h : s.machine.cpu.halted = true) (list : List Call) :
    Frozen s.machine (s.calls list).machine ∧ (s.calls list).host.shown = s.host.shown ∧
      (s.calls list).accesses = s.accesses := by
  induction list generalizing s with
  | nil => exact ⟨⟨rfl, rfl, rfl, rfl⟩, rfl, rfl⟩
  | cons call list ih =>
    obtain ⟨hfrozen, hshown, haccesses⟩ := call_of_halted h call
    obtain ⟨hfrozen', hshown', haccesses'⟩ := ih (hfrozen.halted h)
    exact ⟨hfrozen.trans hfrozen', hshown'.trans hshown, haccesses'.trans haccesses⟩

end Session

/-- A step of a running processor halts it exactly if the opcode has no instruction or the stack has
no room for what it pushes or too little for what it pulls. Such a step writes nothing, changes no
register but the program counter, charges nothing and records its fault; after it, no step, tick or
run changes or does anything any more. -/
theorem faults_are_atomic_and_final :
    (∀ {β : Type} [Bus β] (c : Cpu β), c.stop = none →
      (c.step.halted = true ↔
        match decode c.opcode with
        | none => True
        | some op => c.registers.sp.toNat < op.mnemonic.pushes ∨
            255 < c.registers.sp.toNat + op.mnemonic.pulls) ∧
      (c.step.halted = true →
        c.step.fault = c.registers.faultOn c.opcode ∧
        c.step.registers = { c.registers with
          pc := c.registers.pc + UInt16.ofNat (consumedBy c.opcode) } ∧
        c.step.cycles = c.cycles ∧
        (∀ access ∈ c.accesses 1, access.isWrite = false) ∧
        ∀ count, c.step.steps count = c.step ∧ c.step.accesses count = [])) ∧
    (∀ {σ : Type} [Host σ] (s : Session σ) (list : List Call), s.machine.cpu.halted = true →
      (s.calls list).machine.cpu.registers = s.machine.cpu.registers ∧
      (s.calls list).machine.cpu.cycles = s.machine.cpu.cycles ∧
      (s.calls list).machine.cpu.halted = true ∧
      (s.calls list).machine.cpu.fault = s.machine.cpu.fault ∧
      (s.calls list).machine.memory.store = s.machine.memory.store ∧
      (s.calls list).accesses = s.accesses ∧
      (s.calls list).host.shown = s.host.shown) := by
  constructor
  · intro β _ c h
    have hstep := Cpu.stepsTo_step h
    refine ⟨?_, fun hhalted => ?_⟩
    · rw [Cpu.halted, hstep.fault_eq]
      exact Registers.isSome_faultOn
    · have hfault : c.step.fault ≠ none := by
        intro hnone
        rw [Cpu.halted, hnone] at hhalted
        cases hhalted
      obtain ⟨hregisters, hcycles, hlog⟩ := hstep.of_fault hfault
      have hstop := Cpu.stop_ne_none_of_halted hhalted
      exact ⟨hstep.fault_eq, hregisters, hcycles, hlog, fun count =>
        ⟨Cpu.steps_of_stopped hstop count, Cpu.accesses_of_stopped hstop count⟩⟩
  · intro σ _ s list h
    obtain ⟨hfrozen, hshown, haccesses⟩ := Session.calls_of_halted h list
    refine ⟨hfrozen.registers_eq, hfrozen.cycles_eq, hfrozen.halted h, ?_, hfrozen.store_eq,
      haccesses, hshown⟩
    rw [Cpu.fault, hfrozen.stop_eq, Cpu.fault]

/-- Blank memory is full of software interrupts, and stack pointer 2 leaves no room for one. -/
theorem faults_are_atomic_and_final_on_interrupt :
    let c : Cpu Store := { registers := { sp := 2, pc := 0xFFFF }, bus := .blank }
    let m : Machine :=
      { cpu := { registers := { sp := 2 }, bus := { device := {} }
                 stop := some (.fault (.stackOverflow 2 3)) }
        clock := {}, budget := 10000, budget_eq := by decide +kernel }
    let s : Session Script := { machine := m, host := { host := { polls := [[], []] } } }
    (c.stop = none ∧ c.step.halted = true ∧ c.step.fault = some (.stackOverflow 2 3) ∧
      c.step.registers = { sp := 2, pc := 0 } ∧ c.step.cycles = 0) ∧
    (s.machine.cpu.halted = true ∧
      (s.calls [.tick, .step, .run 3]).machine.cpu.fault = some (.stackOverflow 2 3) ∧
      (s.calls [.tick, .step, .run 3]).accesses = []) := by
  intro c m s
  have hopcode : c.opcode = 0 := Store.get_blank 0xFFFF
  have hdecode : decode 0 = some ⟨.brk, .implied, 7, by decide⟩ := by decide +kernel
  obtain ⟨hiff, hfault⟩ := faults_are_atomic_and_final.1 c rfl
  have hhalted : c.step.halted = true := by
    rw [hiff, hopcode, hdecode]
    exact Or.inl (by decide)
  obtain ⟨hcause, hregisters, hcycles, -, -⟩ := hfault hhalted
  obtain ⟨-, -, -, hkept, -, haccesses, -⟩ :=
    faults_are_atomic_and_final.2 s [.tick, .step, .run 3] rfl
  refine ⟨⟨rfl, hhalted, ?_, ?_, hcycles⟩, rfl, hkept, haccesses⟩
  · rw [hcause, hopcode, Registers.faultOn, hdecode]
    rfl
  · rw [hregisters, hopcode, consumedBy, hdecode]
    simp [c, Opcode.length, Mode.operandLength]

end Challenger1P
