import Challenger1P.Proofs.Mos6502.Faults

/-!
# What a step costs

An instruction that completes costs what the opcode matrix says, and one cycle more if it is a
branch that is taken (`Located.extra_eq`). That is never less than two cycles and never more than
seven (`cost_of_decode`). So a processor with room for seven cycles on its counter either halts at
the next step, without a charge, or it is still running after it, two to seven cycles later
(`step_cases_of_room`).
-/

namespace Challenger1P

theorem Mnemonic.extra_le (mnemonic : Mnemonic) (f : Flags) : mnemonic.extra f ≤ 1 :=
  Bool.toNat_le _

theorem Mnemonic.extra_of_not_branch {mnemonic : Mnemonic} (h : mnemonic.condition? = none)
    (f : Flags) : mnemonic.extra f = 0 := by
  rw [extra, h]
  rfl

/-- In the whole matrix, an instruction costs two to seven cycles, taken branches included. -/
theorem cost_of_decode {opcode : UInt8} {op : Opcode} (h : decode opcode = some op) (f : Flags) :
    2 ≤ op.cycles + op.mnemonic.extra f ∧ op.cycles + op.mnemonic.extra f ≤ 7 := by
  obtain ⟨hmin, hmax, hbranch⟩ : 2 ≤ op.cycles ∧ op.cycles ≤ 7 ∧
      (op.mnemonic.condition?.isSome → op.cycles < 7) :=
    of_decode (P := fun op =>
      2 ≤ op.cycles ∧ op.cycles ≤ 7 ∧ (op.mnemonic.condition?.isSome → op.cycles < 7))
      (by decide +kernel) h
  have hextra := op.mnemonic.extra_le f
  cases hcondition : op.mnemonic.condition? with
  | none =>
    rw [Mnemonic.extra_of_not_branch hcondition]
    exact ⟨hmin, hmax⟩
  | some taken =>
    have hroom := hbranch (by rw [hcondition]; rfl)
    omega

namespace Cpu

variable {β : Type}

/-- With room for the cost, charging stops nothing. -/
theorem stop_charge {c : Cpu β} {cost : Nat} (h : c.cycles.toNat + cost < UInt64.size) :
    (c.charge cost).stop = c.stop := by
  rw [charge, if_pos h]

variable [Bus β] {c : Cpu β}

/-- The flags from before an instruction settle what it costs beyond its opcode. -/
theorem Located.extra_eq {op : Opcode} {operand : Operand} {bus after : β} {log : List Access}
    {final : Registers} {extra : Nat} (h : c.Located op operand bus log)
    (hrun : ((c.registers.advance op.length).execute op.mnemonic operand).run bus =
      (.ok (final, extra), after)) : extra = op.mnemonic.extra c.registers.flags := by
  obtain ⟨_, hok⟩ := (Registers.execute_completes (r := c.registers.advance op.length)
    (h.stackFault_of_completed hrun) h.takes).run bus
  rw [hrun] at hok
  cases hok
  rfl

theorem step_cases_of_room (h : c.stop = none) (hroom : c.cycles.toNat + 7 < UInt64.size) :
    c.step.halted = true ∧ c.step.cycles = c.cycles ∨
      c.step.stop = none ∧ c.cycles.toNat + 2 ≤ c.step.cycles.toNat ∧
        c.step.cycles.toNat ≤ c.cycles.toNat + 7 := by
  have hstep := stepsTo_step h
  generalize c.step = next at hstep ⊢
  generalize c.accesses 1 = log at hstep
  cases hstep with
  | undecoded hop => exact Or.inl ⟨rfl, rfl⟩
  | refused hloc hrun =>
    obtain ⟨cause, -, rfl, -⟩ := hloc.stackFault_of_refused hrun
    exact Or.inl ⟨rfl, rfl⟩
  | @completed op operand bus after log final extra hloc hrun =>
    obtain rfl := hloc.extra_eq hrun
    obtain ⟨hmin, hmax⟩ := cost_of_decode hloc.decode_eq c.registers.flags
    have hfits : c.cycles.toNat + (op.cycles + op.mnemonic.extra c.registers.flags) < UInt64.size :=
      Nat.lt_of_le_of_lt (Nat.add_le_add_left hmax _) hroom
    refine Or.inr ⟨stop_charge hfits, ?_⟩
    rw [toNat_cycles_charge (c := { registers := final, cycles := c.cycles, bus := after }) hfits]
    exact ⟨Nat.add_le_add_left hmin _, Nat.add_le_add_left hmax _⟩

end Cpu

end Challenger1P
