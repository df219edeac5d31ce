import Challenger1P.Proofs.Mos6502.Perform
import Challenger1P.Proofs.Mos6502.Step

/-!
# When an instruction faults

Only the stack can refuse an instruction that decodes: a push without room for all of its bytes, or
a pull of more bytes than there are (`Registers.stackFault`). Then nothing is done at all
(`execute_of_stackFault`); otherwise the instruction completes (`execute_completes`). So the
registers and the opcode decide whether a step halts the processor, and on what fault
(`StepsTo.fault_eq`). A step that does has only moved the program counter (`StepsTo.of_fault`), and
any other is that of a completed instruction (`exists_completed`).
-/

namespace Challenger1P

namespace Registers

open Transaction

/-- The fault with which the stack refuses an instruction, if it does. -/
def stackFault (r : Registers) (mnemonic : Mnemonic) : Option Fault :=
  if r.sp.toNat < mnemonic.pushes then some (.stackOverflow r.sp mnemonic.pushes)
  else if 255 < r.sp.toNat + mnemonic.pulls then some (.stackUnderflow r.sp mnemonic.pulls)
  else none

/-- The fault that an opcode at the program counter halts on, if it does. -/
def faultOn (r : Registers) (opcode : UInt8) : Option Fault :=
  match decode opcode with
  | none => some (.invalidOpcode opcode r.pc)
  | some op => r.stackFault op.mnemonic

variable {r : Registers} {mnemonic : Mnemonic} {operand : Operand}

theorem execute_of_overflow (h : r.sp.toNat < mnemonic.pushes)
    (htakes : mnemonic.takes operand.kind = true) :
    r.execute mnemonic operand = .done (.error (.fault (.stackOverflow r.sp mnemonic.pushes))) := by
  cases mnemonic
  case pha => exact afterPush_of_lt [r.a] h _
  case php => exact afterPush_of_lt [r.flags.toByte] h _
  case brk => exact afterPush_of_lt [_, _, _] h _
  case jsr =>
    obtain ⟨address, rfl⟩ := Operand.eq_address_of_kind (eq_of_beq htakes)
    exact afterPush_of_lt [_, _] h _
  all_goals exact absurd h (Nat.not_lt_zero _)

theorem execute_of_underflow (h : 255 < r.sp.toNat + mnemonic.pulls) :
    r.execute mnemonic operand =
      .done (.error (.fault (.stackUnderflow r.sp mnemonic.pulls))) := by
  have hsp := r.sp.toNat_lt
  cases mnemonic
  case pla | plp | rts | rti => exact afterPull_of_lt h _
  all_goals
    simp only [Mnemonic.pulls] at h
    omega

/-- An instruction that the stack refuses does nothing else. -/
theorem execute_of_stackFault {fault : Fault} (h : r.stackFault mnemonic = some fault)
    (htakes : mnemonic.takes operand.kind = true) :
    r.execute mnemonic operand = .done (.error (.fault fault)) := by
  unfold stackFault at h
  split at h
  · rename_i hover
    obtain rfl := Option.some.inj h
    exact execute_of_overflow hover htakes
  · split at h
    · rename_i hunder
      obtain rfl := Option.some.inj h
      exact execute_of_underflow hunder
    · cases h

theorem stackFault_eq_none :
    r.stackFault mnemonic = none ↔
      mnemonic.pushes ≤ r.sp.toNat ∧ r.sp.toNat + mnemonic.pulls ≤ 255 := by
  unfold stackFault
  split
  · simp; omega
  · split
    · simp; omega
    · simp; omega

theorem isSome_faultOn {opcode : UInt8} :
    (r.faultOn opcode).isSome = true ↔
      match decode opcode with
      | none => True
      | some op => r.sp.toNat < op.mnemonic.pushes ∨ 255 < r.sp.toNat + op.mnemonic.pulls := by
  unfold faultOn
  cases decode opcode with
  | none => simp
  | some op =>
    rw [Option.isSome_iff_ne_none, ne_eq, stackFault_eq_none]
    omega

theorem branch_ensures {address : UInt16} {taken : Flags → Bool}
    (haction : mnemonic.action = .branch taken) (hcondition : mnemonic.condition? = some taken) :
    (r.execute mnemonic (.address address)).Ensures fun outcome =>
      ∃ final, outcome = .ok (final, mnemonic.extra r.flags) := by
  rw [execute, haction, perform_branch, Mnemonic.extra, hcondition, Option.elim_some]
  cases taken r.flags <;> exact ⟨_, rfl⟩

/-- An instruction that the stack does not refuse completes, whatever it reads. -/
theorem execute_completes (h : r.stackFault mnemonic = none)
    (htakes : mnemonic.takes operand.kind = true) :
    (r.execute mnemonic operand).Ensures fun outcome =>
      ∃ final, outcome = .ok (final, mnemonic.extra r.flags) := by
  obtain ⟨hpush, hpull⟩ := stackFault_eq_none.1 h
  cases mnemonic
  case lda | ldx | ldy | adc | sbc | and | ora | eor | bit | cmp | cpx | cpy =>
    obtain ⟨address, rfl⟩ := Operand.eq_address_of_kind (eq_of_beq htakes)
    exact fun value => ⟨_, rfl⟩
  case sta | stx | sty | jmp =>
    obtain ⟨address, rfl⟩ := Operand.eq_address_of_kind (eq_of_beq htakes)
    exact ⟨_, rfl⟩
  case inc | dec =>
    obtain ⟨address, rfl⟩ := Operand.eq_address_of_kind (eq_of_beq htakes)
    exact fun value => ⟨_, rfl⟩
  case asl | lsr | rol | ror =>
    cases operand with
    | none => cases htakes
    | accumulator => exact ⟨_, rfl⟩
    | address address => exact fun value => ⟨_, rfl⟩
  case bcc | bcs | bne | beq | bpl | bmi | bvc | bvs =>
    obtain ⟨address, rfl⟩ := Operand.eq_address_of_kind (eq_of_beq htakes)
    exact branch_ensures rfl rfl
  case jsr =>
    obtain ⟨address, rfl⟩ := Operand.eq_address_of_kind (eq_of_beq htakes)
    exact afterPush_ensures [_, _] hpush fun _ => ⟨_, rfl⟩
  case pha | php => exact afterPush_ensures [_] hpush fun _ => ⟨_, rfl⟩
  case brk => exact afterPush_ensures [_, _, _] hpush fun _ _ _ => ⟨_, rfl⟩
  case pla | plp | rts | rti => exact afterPull_ensures hpull fun _ _ => ⟨_, rfl⟩
  all_goals exact ⟨_, rfl⟩

end Registers

/-- How many bytes a step consumes: the instruction's, or the opcode alone if there is none. -/
def consumedBy (opcode : UInt8) : Nat :=
  match decode opcode with
  | none => 1
  | some op => op.length

namespace Cpu

variable {β : Type} [Bus β] {c next : Cpu β} {log : List Access}

omit [Bus β] in
theorem fault_charge (c : Cpu β) (cost : Nat) (h : c.stop = none) :
    (c.charge cost).fault = none := by
  unfold charge
  split
  · simp only [fault, h]
  · rfl

theorem Located.faultOn {op : Opcode} {operand : Operand} {bus : β}
    (h : c.Located op operand bus log) :
    c.registers.faultOn c.opcode = c.registers.stackFault op.mnemonic := by
  simp only [Registers.faultOn, h.decode_eq]

theorem Located.length {op : Opcode} {operand : Operand} {bus : β}
    (h : c.Located op operand bus log) : consumedBy c.opcode = op.length := by
  simp only [consumedBy, h.decode_eq]

/-- Fetching and resolving only reads. -/
theorem Located.isWrite {op : Opcode} {operand : Operand} {bus : β}
    (h : c.Located op operand bus log) : ∀ access ∈ log, access.isWrite = false := by
  intro access hmem
  rw [h.log_eq] at hmem
  rcases List.mem_cons.1 hmem with rfl | hmem
  · rfl
  · exact ((c.registers.advance 1).resolve_writeFree op.mode).accesses _ access hmem

/-- An instruction is refused exactly on the fault that the stack gives it. -/
theorem Located.stackFault_of_refused {op : Opcode} {operand : Operand} {bus after : β}
    {stop : Stop} (h : c.Located op operand bus log)
    (hrun : ((c.registers.advance op.length).execute op.mnemonic operand).run bus =
      (.error stop, after)) :
    ∃ fault, c.registers.stackFault op.mnemonic = some fault ∧ stop = .fault fault ∧
      ((c.registers.advance op.length).execute op.mnemonic operand).accesses bus = [] := by
  cases hfault : c.registers.stackFault op.mnemonic with
  | none =>
    obtain ⟨final, hok⟩ :=
      (Registers.execute_completes (r := c.registers.advance op.length) hfault h.takes).run bus
    rw [hrun] at hok
    cases hok
  | some fault =>
    have hex := Registers.execute_of_stackFault (r := c.registers.advance op.length) hfault h.takes
    rw [hex] at hrun
    cases hrun
    exact ⟨fault, rfl, rfl, by rw [hex]; rfl⟩

theorem Located.stackFault_of_completed {op : Opcode} {operand : Operand} {bus after : β}
    {result : Registers × Nat} (h : c.Located op operand bus log)
    (hrun : ((c.registers.advance op.length).execute op.mnemonic operand).run bus =
      (.ok result, after)) : c.registers.stackFault op.mnemonic = none := by
  cases hfault : c.registers.stackFault op.mnemonic with
  | none => rfl
  | some fault =>
    rw [Registers.execute_of_stackFault (r := c.registers.advance op.length) hfault h.takes] at hrun
    cases hrun

/-- Whether a step faults, and how, is settled by the registers and the opcode. -/
theorem StepsTo.fault_eq (h : c.StepsTo next log) :
    next.fault = c.registers.faultOn c.opcode := by
  cases h with
  | undecoded hop => simp only [fault, Registers.faultOn, hop]
  | refused hloc hrun =>
    obtain ⟨cause, hcause, rfl, -⟩ := hloc.stackFault_of_refused hrun
    rw [hloc.faultOn, hcause]
    rfl
  | completed hloc hrun =>
    rw [fault_charge _ _ rfl, hloc.faultOn, hloc.stackFault_of_completed hrun]

/-- The fault of a step with an instruction is the one that the stack gives it. -/
theorem fault_step_of_decode {op : Opcode} (h : c.stop = none) (hop : decode c.opcode = some op) :
    c.step.fault = c.registers.stackFault op.mnemonic := by
  rw [(stepsTo_step h).fault_eq, Registers.faultOn, hop]

/-- A step that does not fault leaves the stack no reason to refuse its instruction. -/
theorem stackFault_eq_none_of_step {op : Opcode} (h : c.stop = none)
    (hop : decode c.opcode = some op) (hstep : c.step.halted = false) :
    c.registers.stackFault op.mnemonic = none := by
  rw [halted, fault_step_of_decode h hop] at hstep
  exact Option.isNone_iff_eq_none.1 (Option.isSome_eq_false_iff.1 hstep)

/-- A step whose instruction the stack does not refuse completes it. -/
theorem exists_completed {op : Opcode} (h : c.stop = none) (hop : decode c.opcode = some op)
    (hfits : c.registers.stackFault op.mnemonic = none) :
    ∃ operand bus log final extra after, c.Located op operand bus log ∧
      ((c.registers.advance op.length).execute op.mnemonic operand).run bus =
        (.ok (final, extra), after) ∧
      c.step = charge { registers := final, cycles := c.cycles, bus := after } (op.cycles + extra) ∧
      c.accesses 1 =
        log ++ ((c.registers.advance op.length).execute op.mnemonic operand).accesses bus := by
  have hstep := stepsTo_step h
  generalize c.step = next at hstep ⊢
  generalize c.accesses 1 = made at hstep ⊢
  cases hstep with
  | undecoded hnone => simp [hnone] at hop
  | refused hloc hrun =>
    obtain rfl := Option.some.inj (hop.symm.trans hloc.decode_eq)
    obtain ⟨cause, hcause, -⟩ := hloc.stackFault_of_refused hrun
    rw [hfits] at hcause
    cases hcause
  | completed hloc hrun =>
    obtain rfl := Option.some.inj (hop.symm.trans hloc.decode_eq)
    exact ⟨_, _, _, _, _, _, hloc, hrun, rfl, rfl⟩

/-- A step that faults has moved the program counter past the bytes it consumed, and that is all it
has done. -/
theorem StepsTo.of_fault (h : c.StepsTo next log) (hfault : next.fault ≠ none) :
    next.registers = c.registers.advance (consumedBy c.opcode) ∧ next.cycles = c.cycles ∧
      ∀ access ∈ log, access.isWrite = false := by
  cases h with
  | undecoded hop => simp [consumedBy, hop, Access.isWrite]
  | refused hloc hrun =>
    obtain ⟨cause, -, -, hlog⟩ := hloc.stackFault_of_refused hrun
    rw [hloc.length, hlog, List.append_nil]
    exact ⟨rfl, rfl, hloc.isWrite⟩
  | completed hloc hrun => exact absurd (fault_charge _ _ rfl) hfault

end Cpu

end Challenger1P
