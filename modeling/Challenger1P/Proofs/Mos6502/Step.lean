import Challenger1P.Proofs.Mos6502.Fetch

/-!
# What a step can come to

One step of a running processor ends in one of three ways: the opcode has no instruction, the
instruction refuses, or it completes. `Cpu.StepsTo` lists them, each with the processor after the
step and the accesses that it made, and `stepsTo_step` says that there are no others. What follows
about steps is proved of the three cases.
-/

namespace Challenger1P.Cpu

variable {β : Type} [Bus β]

/-- The byte at the program counter. -/
def opcode (c : Cpu β) : UInt8 := (Bus.read c.bus c.registers.pc).1

/-- The bus once the opcode is read. -/
def busFetched (c : Cpu β) : β := (Bus.read c.bus c.registers.pc).2

/-- The processor has read the opcode of `op` and found its operand: `bus` is what this leaves of
its bus, and `log` what it did to it. -/
structure Located (c : Cpu β) (op : Opcode) (operand : Operand) (bus : β) (log : List Access) :
    Prop where
  decode_eq : decode c.opcode = some op
  run_eq : ((c.registers.advance 1).resolve op.mode).run c.busFetched =
    ((operand, c.registers.advance op.length), bus)
  kind_eq : operand.kind = op.mode.kind
  log_eq : log = .read c.registers.pc c.opcode ::
    ((c.registers.advance 1).resolve op.mode).accesses c.busFetched

/-- Where one step can lead, and by which accesses. -/
inductive StepsTo (c : Cpu β) : Cpu β → List Access → Prop where
  /-- No instruction has the opcode. -/
  | undecoded (hop : decode c.opcode = none) :
      StepsTo c
        { registers := c.registers.advance 1, cycles := c.cycles, bus := c.busFetched
          stop := some (.fault (.invalidOpcode c.opcode c.registers.pc)) }
        [.read c.registers.pc c.opcode]
  /-- The instruction refuses: what it did before stays done, and nothing is charged. -/
  | refused {op : Opcode} {operand : Operand} {bus after : β} {log : List Access} {stop : Stop}
      (hloc : c.Located op operand bus log)
      (hrun : ((c.registers.advance op.length).execute op.mnemonic operand).run bus =
        (.error stop, after)) :
      StepsTo c
        { registers := c.registers.advance op.length, cycles := c.cycles, bus := after
          stop := some stop }
        (log ++ ((c.registers.advance op.length).execute op.mnemonic operand).accesses bus)
  /-- The instruction completes and is charged for. -/
  | completed {op : Opcode} {operand : Operand} {bus after : β} {log : List Access}
      {final : Registers} {extra : Nat} (hloc : c.Located op operand bus log)
      (hrun : ((c.registers.advance op.length).execute op.mnemonic operand).run bus =
        (.ok (final, extra), after)) :
      StepsTo c
        (charge { registers := final, cycles := c.cycles, bus := after } (op.cycles + extra))
        (log ++ ((c.registers.advance op.length).execute op.mnemonic operand).accesses bus)

/-- A decoded opcode has its operand located. -/
theorem exists_located {c : Cpu β} {op : Opcode} (hop : decode c.opcode = some op) :
    ∃ operand bus log, c.Located op operand bus log := by
  obtain ⟨hkind, hadv⟩ := ((c.registers.advance 1).resolve_ensures op.mode).run c.busFetched
  rcases hres : ((c.registers.advance 1).resolve op.mode).run c.busFetched with
    ⟨⟨operand, resolved⟩, bus⟩
  simp only [hres] at hkind hadv
  refine ⟨operand, bus, _, hop, ?_, hkind, rfl⟩
  rw [hres, hadv, Registers.advance_advance, Opcode.length]

theorem Located.takes {c : Cpu β} {op : Opcode} {operand : Operand} {bus : β} {log : List Access}
    (h : c.Located op operand bus log) : op.mnemonic.takes operand.kind = true := by
  rw [h.kind_eq]
  exact takes_of_decode h.decode_eq

/-! ## The instruction as a transaction, opened once -/

theorem instruction_of_undecoded {c : Cpu β} (hop : decode c.opcode = none) :
    c.registers.instruction.run c.bus =
        ((c.registers.advance 1, .error (.fault (.invalidOpcode c.opcode c.registers.pc))),
          c.busFetched) ∧
      c.registers.instruction.accesses c.bus = [.read c.registers.pc c.opcode] := by
  rw [opcode] at hop
  constructor
  · simp [Registers.instruction, Registers.fetchByte_eq, Transaction.run, Transaction.bind, hop,
      opcode, busFetched]
  · simp [Registers.instruction, Registers.fetchByte_eq, Transaction.accesses, Transaction.bind,
      hop, opcode]

theorem run_instruction {c : Cpu β} {op : Opcode} {operand : Operand} {bus : β} {log : List Access}
    (hloc : c.Located op operand bus log) :
    c.registers.instruction.run c.bus =
      match ((c.registers.advance op.length).execute op.mnemonic operand).run bus with
      | (.ok (final, extra), after) => ((final, .ok (op.cycles + extra)), after)
      | (.error stop, after) => ((c.registers.advance op.length, .error stop), after) := by
  have hop := hloc.decode_eq
  have hres := hloc.run_eq
  rw [opcode] at hop
  rw [busFetched] at hres
  simp only [Registers.instruction, Registers.fetchByte_eq, Transaction.run, Transaction.bind, hop,
    Transaction.bind_eq, Transaction.run_bind, hres]
  rcases ((c.registers.advance op.length).execute op.mnemonic operand).run bus with
    ⟨stop | ⟨final, extra⟩, after⟩ <;> rfl

theorem accesses_instruction {c : Cpu β} {op : Opcode} {operand : Operand} {bus : β}
    {log : List Access} (hloc : c.Located op operand bus log) :
    c.registers.instruction.accesses c.bus =
      log ++ ((c.registers.advance op.length).execute op.mnemonic operand).accesses bus := by
  have hop := hloc.decode_eq
  have hres := hloc.run_eq
  have hlog := hloc.log_eq
  rw [opcode] at hop
  rw [busFetched] at hres
  rw [hlog]
  simp only [Registers.instruction, Registers.fetchByte_eq, Transaction.accesses, Transaction.bind,
    hop, Transaction.bind_eq, Transaction.accesses_bind, hres, opcode, busFetched]
  rcases ((c.registers.advance op.length).execute op.mnemonic operand).run bus with
    ⟨stop | ⟨final, extra⟩, after⟩ <;> simp

/-- Every step of a running processor is one of the three. -/
theorem stepsTo_step {c : Cpu β} (h : c.stop = none) : c.StepsTo c.step (c.accesses 1) := by
  rw [accesses_one h]
  cases hop : decode c.opcode with
  | none =>
    obtain ⟨hrun, hlog⟩ := instruction_of_undecoded hop
    rw [step_of_error h hrun, hlog]
    exact .undecoded hop
  | some op =>
    obtain ⟨operand, bus, log, hloc⟩ := exists_located hop
    have hrun := run_instruction hloc
    rw [accesses_instruction hloc]
    rcases hex : ((c.registers.advance op.length).execute op.mnemonic operand).run bus with
      ⟨stop | ⟨final, extra⟩, after⟩
    · rw [hex] at hrun
      rw [step_of_error h hrun]
      exact .refused hloc hex
    · rw [hex] at hrun
      rw [step_of_ok h hrun]
      exact .completed hloc hex

end Challenger1P.Cpu
