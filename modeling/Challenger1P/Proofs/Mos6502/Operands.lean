import Challenger1P.Memory.Store
import Challenger1P.Proofs.Mos6502.Cost

/-!
# Operands that fit their instructions

The instructions are written down for every operand, also for those that they cannot be given: one
that denotes no byte is read as zero, one without an address is refused, and a changed value that
has no place is dropped. A `Fallback` leaves open what is done instead, and `instructionOr` is an
instruction with those parts left open. (Look-ups need no such parts: in the opcode matrix and among
the bytes pulled they carry the proofs of their bounds.)

* `instructionOr_eq`: they are never come to, so that anything could stand there.
* `instruction_ensures`: an instruction costs two to seven cycles, or the processor halts on a
  fault.
-/

namespace Challenger1P

/-- What to do about operands that an instruction cannot work on. -/
structure Fallback where
  /-- The operand denotes no byte, and this goes on with a byte. -/
  noByte : (UInt8 → Transaction Outcome) → Transaction Outcome
  /-- The operand has no address, and this goes on with an address. -/
  noAddress : (UInt16 → Transaction Outcome) → Transaction Outcome
  /-- The operand is changed, and these are the registers, but it has no place. -/
  noPlace : Registers → Transaction Outcome

/-- What the instructions do about them. -/
def Fallback.standard : Fallback where
  noByte next := next 0
  noAddress _ := .done (.error .noAddress)
  noPlace r := r.settled

namespace Registers

open Transaction

/-- Go on with the byte that an operand denotes. -/
def readOr (fallback : Fallback) (r : Registers) (operand : Operand)
    (next : UInt8 → Transaction Outcome) : Transaction Outcome :=
  match operand with
  | .none => fallback.noByte next
  | .accumulator => next r.a
  | .address address => .read address next

/-- Go on with the address of an operand. -/
def addressOr (fallback : Fallback) (operand : Operand) (next : UInt16 → Transaction Outcome) :
    Transaction Outcome :=
  match operand with
  | .address address => next address
  | _ => fallback.noAddress next

/-- Carry an action out, with a fallback for the operand. -/
def performOr (fallback : Fallback) (r : Registers) (operand : Operand) :
    Action → Transaction Outcome
  | .load target => r.readOr fallback operand fun value => settled (r.load target value)
  | .store source => addressOr fallback operand fun address =>
    .write address (r.get source) (settled r)
  | .combine f => r.readOr fallback operand fun value =>
    settled { r with a := (f r.flags r.a value).1, flags := (f r.flags r.a value).2 }
  | .test left f => r.readOr fallback operand fun value =>
    settled { r with flags := f r.flags (r.get left) value }
  | .modify f => r.readOr fallback operand fun value =>
    match operand with
    | .none => fallback.noPlace { r with flags := (f r.flags value).2 }
    | .accumulator => settled { r with a := (f r.flags value).1, flags := (f r.flags value).2 }
    | .address address =>
      .write address (f r.flags value).1 (settled { r with flags := (f r.flags value).2 })
  | .branch taken =>
    if taken r.flags then
      addressOr fallback operand fun address => .done (.ok ({ r with pc := address }, 1))
    else settled r
  | .jump => addressOr fallback operand fun address => settled { r with pc := address }
  | .callSubroutine => addressOr fallback operand fun address =>
    r.afterPush [highByte (r.pc - 1), lowByte (r.pc - 1)] fun r => settled { r with pc := address }
  | action => r.perform operand action

/-- One instruction, with a fallback for its operand. -/
def instructionOr (fallback : Fallback) (r : Registers) :
    Transaction (Registers × Except Stop Nat) := do
  let (opcode, fetched) ← r.fetchByte
  match decode opcode with
  | none => return (fetched, .error (.fault (.invalidOpcode opcode r.pc)))
  | some op =>
    let (operand, resolved) ← fetched.resolve op.mode
    match ← resolved.performOr fallback operand op.mnemonic.action with
    | .ok (final, extra) => return (final, .ok (op.cycles + extra))
    | .error stop => return (resolved, .error stop)

variable {r : Registers} {mnemonic : Mnemonic} {operand : Operand}

theorem performOr_standard (r : Registers) (operand : Operand) (action : Action) :
    r.performOr .standard operand action = r.perform operand action := by
  cases action <;> cases operand <;> rfl

/-- The instructions themselves, with the fallback that they have. -/
theorem instructionOr_standard (r : Registers) : r.instructionOr .standard = r.instruction := by
  simp only [instructionOr, performOr_standard]
  rfl

/-! ## No fallback is come to -/

theorem performOr_address (fallback : Fallback) (r : Registers) (address : UInt16)
    (action : Action) :
    r.performOr fallback (.address address) action = r.perform (.address address) action := by
  cases action <;> rfl

/-- An instruction with an operand of the kind that it takes does without a fallback. -/
theorem performOr_eq (fallback : Fallback) (htakes : mnemonic.takes operand.kind = true) :
    r.performOr fallback operand mnemonic.action = r.execute mnemonic operand := by
  cases operand with
  | address address => exact performOr_address fallback r address mnemonic.action
  | none | accumulator => cases mnemonic <;> cases htakes <;> rfl

/-- Whatever the fallback is, an instruction is the same to the access. -/
theorem instructionOr_eq (fallback : Fallback) (r : Registers) :
    r.instructionOr fallback = r.instruction := by
  refine (ensures_true r.fetchByte).bind_congr ?_
  rintro ⟨opcode, fetched⟩ -
  cases hop : decode opcode with
  | none => simp only [hop]
  | some op =>
    simp only [hop]
    refine (fetched.resolve_ensures op.mode).bind_congr ?_
    rintro ⟨operand, resolved⟩ hresolved
    have htakes : op.mnemonic.takes operand.kind = true := by
      rw [hresolved.1]
      exact takes_of_decode hop
    exact congr (congrArg Transaction.bind (performOr_eq fallback htakes)) rfl

/-! ## How an instruction ends -/

/-- With an operand of the kind that it takes, an instruction can only be refused by the stack. -/
theorem execute_ensures (htakes : mnemonic.takes operand.kind = true) :
    (r.execute mnemonic operand).Ensures fun
      | .ok (_, extra) => extra = mnemonic.extra r.flags
      | .error stop => ∃ cause, stop = .fault cause := by
  cases hfault : r.stackFault mnemonic with
  | none =>
    refine (execute_completes hfault htakes).mono ?_
    rintro _ ⟨final, rfl⟩
    rfl
  | some fault =>
    rw [execute_of_stackFault hfault htakes]
    exact ⟨fault, rfl⟩

/-- An instruction costs two to seven cycles, or it ends in a fault. -/
theorem instruction_ensures (r : Registers) :
    r.instruction.Ensures fun
      | (_, .ok cost) => 2 ≤ cost ∧ cost ≤ 7
      | (_, .error stop) => ∃ cause, stop = .fault cause := by
  refine (ensures_true r.fetchByte).bind fun ⟨opcode, fetched⟩ _ => ?_
  cases hop : decode opcode with
  | none =>
    simp only [hop]
    exact ⟨_, rfl⟩
  | some op =>
    simp only [hop]
    refine (fetched.resolve_ensures op.mode).bind fun ⟨operand, resolved⟩ hresolved => ?_
    have htakes : op.mnemonic.takes operand.kind = true := by
      rw [hresolved.1]
      exact takes_of_decode hop
    refine (execute_ensures htakes).bind fun outcome houtcome => ?_
    match outcome, houtcome with
    | .ok (final, _), rfl => exact cost_of_decode hop resolved.flags
    | .error _, hcause => exact hcause

end Registers

namespace Cpu

variable {β : Type} [Bus β]

omit [Bus β] in
/-- Whether the emulation itself broke down, which is not for a program to do. -/
def crashed (c : Cpu β) : Bool :=
  match c.stop with
  | some .noAddress | some .counterFull => true
  | _ => false

omit [Bus β] in
theorem not_crashed_of_halted {c : Cpu β} (h : c.halted = true) : c.crashed = false := by
  unfold halted fault at h
  unfold crashed
  split at h
  · rename_i hstop
    rw [hstop]
  · cases h

/-- As long as the counter has room for one more instruction, whichever it is, no step breaks down.
The operand is of the kind that the instruction is written for, so that what is written down for
others is never come to. The cost fits into a byte, and the counter still holds it. -/
theorem steps_never_crash (c : Cpu β) (hroom : c.cycles.toNat + 8 ≤ UInt64.size) :
    c.step.crashed = c.crashed ∧
      (∀ fallback, c.registers.instructionOr fallback = c.registers.instruction) ∧
      ∀ cost, (c.registers.instruction.run c.bus).1.2 = .ok cost →
        cost < UInt8.size ∧ c.cycles.toNat + cost < UInt64.size := by
  have hends := c.registers.instruction_ensures.run c.bus
  refine ⟨?_, fun fallback => Registers.instructionOr_eq fallback c.registers, fun cost hcost => ?_⟩
  · cases hstop : c.stop with
    | some stop => rw [step_of_stopped (by rw [hstop]; exact Option.some_ne_none stop)]
    | none =>
      have hcalm : c.crashed = false := by rw [crashed, hstop]
      rw [hcalm]
      rcases step_cases_of_room hstop (by omega) with ⟨hhalted, -⟩ | ⟨hrunning, -⟩
      · exact not_crashed_of_halted hhalted
      · rw [crashed, hrunning]
  · match hrun : c.registers.instruction.run c.bus, hends, hcost with
    | ((final, .ok _), bus), hends, rfl =>
      have hle : cost ≤ 7 := hends.2
      have hsize : UInt8.size = 256 := rfl
      omega

/-- The dearest instruction fills a counter that has room for no more, and one cycle less would not
have been enough. -/
theorem steps_never_crash_on_the_last_cycles :
    let c : Cpu Store := { cycles := 0xFFFFFFFFFFFFFFF8, bus := Store.blank.set 0 0x1E }
    c.cycles.toNat + 8 ≤ UInt64.size ∧ c.step.crashed = false ∧
      c.step.cycles = 0xFFFFFFFFFFFFFFFF ∧
      { c with cycles := c.cycles + 1 }.step.crashed = true := by
  intro c
  have hroom : c.cycles.toNat + 8 ≤ UInt64.size := by decide
  obtain ⟨hcalm, -, -⟩ := steps_never_crash c hroom
  exact ⟨hroom, hcalm.trans rfl, by decide +kernel, by decide +kernel⟩

end Cpu

end Challenger1P
