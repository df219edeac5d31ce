import Challenger1P.Mos6502.Latched
import Challenger1P.Proofs.Mos6502.Operands

/-!
# Both fields of a halt

A stored processor is `Latched` when its latch is set exactly if it has a fault on record. A reset
makes it so whatever it was before, and a step keeps it so (`Latched.step?`): it is the step of the
processor that this is, and fails where that one's counter has no room.
-/

namespace Challenger1P.LatchedCpu

variable {β : Type} {c next : LatchedCpu β}

/-- The latch and the record say the same. -/
def Latched (c : LatchedCpu β) : Prop := c.halted = c.fault.isSome

theorem fault_cpu (c : LatchedCpu β) : c.cpu.fault = c.fault := by
  obtain ⟨registers, cycles, bus, halted, _ | cause⟩ := c <;> rfl

theorem Latched.halted_cpu (h : c.Latched) : c.cpu.halted = c.halted := by
  rw [Cpu.halted, fault_cpu, h]

theorem stop_cpu_ne_counterFull (c : LatchedCpu β) : c.cpu.stop ≠ some .counterFull := by
  obtain ⟨registers, cycles, bus, halted, _ | cause⟩ := c <;> nofun

theorem Latched.fault_eq_none (h : c.Latched) (hhalted : c.halted = false) : c.fault = none := by
  rw [Latched, hhalted] at h
  exact Option.not_isSome_iff_eq_none.1 (Bool.eq_false_iff.1 h.symm)

theorem Latched.stop_cpu_eq_none (h : c.Latched) (hhalted : c.halted = false) :
    c.cpu.stop = none := by
  rw [cpu, h.fault_eq_none hhalted]
  rfl

theorem Latched.stop_cpu_ne_none (h : c.Latched) (hhalted : c.halted = true) :
    c.cpu.stop ≠ none := by
  obtain ⟨cause, hcause⟩ := Option.isSome_iff_exists.1 (h.symm.trans hhalted)
  rw [cpu, hcause]
  nofun

theorem latched_jam (c : LatchedCpu β) (cause : Fault) : (c.jam cause).Latched := rfl

theorem Latched.charge?_cases (h : c.Latched) (cost : Nat) :
    (∃ next, c.charge? cost = some next ∧ next.Latched ∧ next.cpu = c.cpu.charge cost) ∨
      c.charge? cost = none ∧ (c.cpu.charge cost).stop = some .counterFull := by
  unfold charge? Cpu.charge
  by_cases hroom : c.cycles.toNat + cost < UInt64.size
  · rw [if_pos hroom, if_pos (show c.cpu.cycles.toNat + cost < UInt64.size from hroom)]
    exact Or.inl ⟨_, rfl, h, rfl⟩
  · rw [if_neg hroom, if_neg (show ¬ c.cpu.cycles.toNat + cost < UInt64.size from hroom)]
    exact Or.inr ⟨rfl, rfl⟩

variable [Bus β]

/-- A reset brings both fields in step, whatever they were. -/
theorem latched_reset (c : LatchedCpu β) : c.reset.Latched := rfl

theorem cpu_reset (c : LatchedCpu β) : c.reset.cpu = c.cpu.reset := rfl

/-- A step is that of the processor and keeps the fields in step, unless the counter has no room. -/
theorem Latched.step?_cases (h : c.Latched) :
    (∃ next, c.step? = some next ∧ next.Latched ∧ next.cpu = c.cpu.step) ∨
      c.step? = none ∧ c.cpu.step.stop = some .counterFull := by
  cases hhalted : c.halted with
  | true =>
    have hstep := Cpu.step_of_stopped (h.stop_cpu_ne_none hhalted)
    exact Or.inl ⟨c, if_pos hhalted, h, hstep.symm⟩
  | false =>
    have hstop := h.stop_cpu_eq_none hhalted
    have hends := c.registers.instruction_ensures.run c.bus
    rw [step?, if_neg (Bool.eq_false_iff.1 hhalted)]
    rcases hrun : c.registers.instruction.run c.bus with ⟨⟨registers, stop | cost⟩, bus⟩
    · -- the operand is never to blame
      rw [hrun] at hends
      obtain ⟨cause, rfl⟩ := hends
      rw [Cpu.step_of_error hstop hrun]
      exact Or.inl ⟨_, rfl, latched_jam _ _, rfl⟩
    · rw [Cpu.step_of_ok hstop hrun, ← hstop]
      exact Latched.charge?_cases (c := { c with registers, bus }) (h : _ = _) cost

end Challenger1P.LatchedCpu
