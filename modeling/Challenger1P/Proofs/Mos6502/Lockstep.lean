import Challenger1P.Proofs.Bus.Recording

/-!
# Processors in step

A processor sees nothing of its bus but what is read from it. So two processors that are equal but
for their buses (`InStep`) are so after a step as well, if the instruction comes to the same on both
buses (`InStep.step`).
-/

namespace Challenger1P.Cpu

variable {β γ : Type} {c : Cpu β} {d : Cpu γ}

/-- The two processors are in the same state, whatever their buses are. -/
structure InStep (c : Cpu β) (d : Cpu γ) : Prop where
  registers_eq : d.registers = c.registers
  cycles_eq : d.cycles = c.cycles
  stop_eq : d.stop = c.stop

theorem InStep.fault_eq (h : c.InStep d) : d.fault = c.fault := by rw [fault, fault, h.stop_eq]

theorem InStep.halted_eq (h : c.InStep d) : d.halted = c.halted := by
  rw [halted, halted, h.fault_eq]

theorem InStep.charge (h : c.InStep d) (cost : Nat) : (c.charge cost).InStep (d.charge cost) := by
  unfold Cpu.charge
  rw [h.cycles_eq]
  split
  · exact ⟨h.registers_eq, rfl, h.stop_eq⟩
  · exact ⟨h.registers_eq, rfl, rfl⟩

variable [Bus β] [Bus γ]

theorem InStep.step (h : c.InStep d)
    (hresult : c.stop = none →
      (c.registers.instruction.run d.bus).1 = (c.registers.instruction.run c.bus).1) :
    c.step.InStep d.step := by
  cases hstop : c.stop with
  | some stop =>
    rw [step_of_stopped (c := c) (by simp [hstop]), step_of_stopped (by simp [h.stop_eq, hstop])]
    exact h
  | none =>
    have hstop' : d.stop = none := h.stop_eq.trans hstop
    rcases hrun : c.registers.instruction.run c.bus with ⟨⟨after, outcome⟩, bus⟩
    have hrun' : d.registers.instruction.run d.bus =
        ((after, outcome), (c.registers.instruction.run d.bus).2) := by
      rw [h.registers_eq]
      exact Prod.ext (by rw [hresult hstop, hrun]) rfl
    cases outcome with
    | error stop =>
      rw [step_of_error hstop hrun, step_of_error hstop' hrun']
      exact ⟨rfl, h.cycles_eq, rfl⟩
    | ok cost =>
      rw [step_of_ok hstop hrun, step_of_ok hstop' hrun']
      have huncharged : ({ registers := after, cycles := c.cycles, bus } : Cpu β).InStep
          { registers := after, cycles := d.cycles
            bus := (c.registers.instruction.run d.bus).2 } := ⟨rfl, h.cycles_eq, rfl⟩
      exact huncharged.charge cost

/-- What holds of their buses holds after a step, if the instruction keeps to it. -/
theorem InStep.bus_step {R : β → γ → Prop} (h : c.InStep d) (hbus : R c.bus d.bus)
    (hrun : c.stop = none → R (c.registers.instruction.run c.bus).2
      (c.registers.instruction.run d.bus).2) :
    R c.step.bus d.step.bus := by
  cases hstop : c.stop with
  | some stop =>
    rw [step_of_stopped (c := c) (by simp [hstop]), step_of_stopped (by simp [h.stop_eq, hstop])]
    exact hbus
  | none =>
    rw [Cpu.bus_step hstop, Cpu.bus_step (h.stop_eq.trans hstop), h.registers_eq]
    exact hrun hstop

end Challenger1P.Cpu
