import Mathlib.Data.List.Induction
import Challenger1P.Memory.Store
import Challenger1P.Proofs.Mos6502.Latched
import Challenger1P.Proofs.Mos6502.Return
import Challenger1P.Proofs.Mos6502.Traffic
import Challenger1P.Proofs.Since

/-!
# The status register from the first reset on

Some fifty instructions write flags, and two take all of them from memory. Still a processor that
has been switched on, and then stepped and reset in any order, always has the unused flag set, and
its break flag is as the last reset or pull of the register left it. So the status bytes that it
pushes have the unused bit set, and a software interrupt adds the break bit to the byte alone.

* `execute_status`: what one instruction does to these two flags.
* `fault_turns`: the fault on record is that of a step since the last reset.
* `LatchedCpu.latched_turns?`: the latch and the fault on record never come apart.
-/

namespace Challenger1P

/-! ## The byte pushed -/

theorem Flags.testBit_toByte (f : Flags) :
    f.toByte.toNat.testBit 4 = f.software ∧ f.toByte.toNat.testBit 5 = f.always := by
  obtain ⟨c, z, i, d, b, u, v, n⟩ := f
  revert c z i d b u v n
  decide +kernel

/-! ## One instruction -/

/-- Whether an instruction pulls the status register from the stack. -/
def Mnemonic.pullsStatus : Mnemonic → Bool
  | .plp | .rti => true
  | _ => false

theorem Mnemonic.pullsStatus_iff {mnemonic : Mnemonic} :
    mnemonic.pullsStatus = true ↔ mnemonic = .plp ∨ mnemonic = .rti := by
  cases mnemonic <;> simp [pullsStatus]

/-- The unused flag and the break flag of both are the same. -/
def Flags.SameMarks (f g : Flags) : Prop := g.always = f.always ∧ g.software = f.software

namespace Registers

open Transaction

variable {r : Registers} {mnemonic : Mnemonic} {operand : Operand}

/-- What an instruction with this outcome has done to the unused flag and the break flag. -/
def StatusKept (r : Registers) (mnemonic : Mnemonic) (outcome : Outcome) : Prop :=
  ∀ final extra, outcome = .ok (final, extra) →
    if mnemonic.pullsStatus then final.flags.always = true else r.flags.SameMarks final.flags

theorem StatusKept.of_error (stop : Stop) : r.StatusKept mnemonic (.error stop) := by
  rintro _ _ ⟨⟩

theorem execute_status (htakes : mnemonic.takes operand.kind = true) :
    (r.execute mnemonic operand).Ensures (r.StatusKept mnemonic) := by
  cases mnemonic
  case lda | ldx | ldy | adc | sbc | and | ora | eor | bit | cmp | cpx | cpy =>
    obtain ⟨address, rfl⟩ := Operand.eq_address_of_kind (eq_of_beq htakes)
    rintro value _ _ ⟨⟩
    exact ⟨rfl, rfl⟩
  case sta | stx | sty | jmp =>
    obtain ⟨address, rfl⟩ := Operand.eq_address_of_kind (eq_of_beq htakes)
    rintro _ _ ⟨⟩
    exact ⟨rfl, rfl⟩
  case inc | dec =>
    obtain ⟨address, rfl⟩ := Operand.eq_address_of_kind (eq_of_beq htakes)
    rintro value _ _ ⟨⟩
    exact ⟨rfl, rfl⟩
  case asl | lsr | rol | ror =>
    cases operand with
    | none => cases htakes
    | accumulator =>
      rintro _ _ ⟨⟩
      exact ⟨rfl, rfl⟩
    | address address =>
      rintro value _ _ ⟨⟩
      exact ⟨rfl, rfl⟩
  case bcc | bcs | bne | beq | bpl | bmi | bvc | bvs =>
    obtain ⟨address, rfl⟩ := Operand.eq_address_of_kind (eq_of_beq htakes)
    show (perform _ _ (.branch _)).Ensures _
    rw [perform_branch]
    split <;> rintro _ _ ⟨⟩ <;> exact ⟨rfl, rfl⟩
  case jsr =>
    obtain ⟨address, rfl⟩ := Operand.eq_address_of_kind (eq_of_beq htakes)
    refine afterPush_ensures_or_refused _ StatusKept.of_error fun sp => ?_
    rintro _ _ ⟨⟩
    exact ⟨rfl, rfl⟩
  case pha | php =>
    refine afterPush_ensures_or_refused _ StatusKept.of_error fun sp => ?_
    rintro _ _ ⟨⟩
    exact ⟨rfl, rfl⟩
  case brk =>
    refine afterPush_ensures_or_refused _ StatusKept.of_error fun sp => ?_
    rintro low high _ _ ⟨⟩
    exact ⟨rfl, rfl⟩
  case pla | rts =>
    refine afterPull_ensures_or_refused StatusKept.of_error fun values sp => ?_
    rintro _ _ ⟨⟩
    exact ⟨rfl, rfl⟩
  case plp | rti =>
    refine afterPull_ensures_or_refused StatusKept.of_error fun values sp => ?_
    rintro _ _ ⟨⟩
    exact rfl
  all_goals
    rintro _ _ ⟨⟩
    exact ⟨rfl, rfl⟩

end Registers

/-- In the whole matrix, the instructions that push the status register have no operand. -/
theorem mode_of_decode {opcode : UInt8} {op : Opcode} (h : decode opcode = some op) :
    op.mnemonic = .php ∨ op.mnemonic = .brk → op.mode = .implied :=
  of_decode (P := fun op => op.mnemonic = .php ∨ op.mnemonic = .brk → op.mode = .implied)
    (by decide +kernel) h

namespace Cpu

variable {β : Type} [Bus β] {c : Cpu β}

/-! ## One step -/

theorem Located.mnemonic_eq {op : Opcode} {operand : Operand} {bus : β} {log : List Access}
    (h : c.Located op operand bus log) : c.mnemonic = some op.mnemonic := by
  rw [mnemonic, h.decode_eq, Option.map_some]

omit [Bus β] in
theorem cycles_le_charge (c : Cpu β) (cost : Nat) : c.cycles ≤ (c.charge cost).cycles := by
  by_cases h : c.cycles.toNat + cost < UInt64.size
  · rw [UInt64.le_iff_toNat_le, toNat_cycles_charge h]
    exact Nat.le_add_right _ _
  · rw [charge, if_neg h]
    exact UInt64.le_refl _

/-- A step completes an instruction, or it leaves the flags and the cycle counter alone. -/
theorem step_keeps_or_completes (c : Cpu β) :
    c.step.registers.flags = c.registers.flags ∧ c.step.cycles = c.cycles ∨
      ∃ (op : Opcode) (operand : Operand) (bus after : β) (log : List Access) (final : Registers)
        (extra : Nat), c.Located op operand bus log ∧
          ((c.registers.advance op.length).execute op.mnemonic operand).run bus =
            (.ok (final, extra), after) ∧
          c.step =
            charge { registers := final, cycles := c.cycles, bus := after } (op.cycles + extra) := by
  cases hstop : c.stop with
  | some stop =>
    rw [step_of_stopped (by simp [hstop])]
    exact Or.inl ⟨rfl, rfl⟩
  | none =>
    have hstep := stepsTo_step hstop
    generalize c.step = next at hstep ⊢
    generalize c.accesses 1 = log at hstep
    cases hstep with
    | undecoded hop => exact Or.inl ⟨rfl, rfl⟩
    | refused hloc hrun => exact Or.inl ⟨rfl, rfl⟩
    | completed hloc hrun => exact Or.inr ⟨_, _, _, _, _, _, _, hloc, hrun, rfl⟩

/-- A step leaves the unused flag and the break flag alone, unless it pulls the status register;
then it sets the unused flag. -/
theorem marks_step (c : Cpu β) :
    c.registers.flags.SameMarks c.step.registers.flags ∨
      (c.mnemonic = some .plp ∨ c.mnemonic = some .rti) ∧
        c.step.registers.flags.always = true := by
  rcases c.step_keeps_or_completes with
    ⟨hflags, -⟩ | ⟨op, operand, bus, after, log, final, extra, hloc, hrun, hstep⟩
  · rw [hflags]
    exact Or.inl ⟨rfl, rfl⟩
  · have hstatus := (Registers.execute_status (r := c.registers.advance op.length)
      hloc.takes).run bus
    rw [hrun] at hstatus
    have hfinal := hstatus _ _ rfl
    rw [hstep, registers_charge, hloc.mnemonic_eq]
    split at hfinal
    · rename_i hpulls
      rw [Option.some_inj, Option.some_inj]
      exact Or.inr ⟨Mnemonic.pullsStatus_iff.1 hpulls, hfinal⟩
    · exact Or.inl hfinal

theorem cycles_le_step (c : Cpu β) : c.cycles ≤ c.step.cycles := by
  rcases c.step_keeps_or_completes with
    ⟨-, hcycles⟩ | ⟨op, operand, bus, after, log, final, extra, -, -, hstep⟩
  · rw [hcycles]
    exact UInt64.le_refl _
  · rw [hstep]
    exact cycles_le_charge { registers := final, cycles := c.cycles, bus := after } _

theorem cycles_le_steps (c : Cpu β) (count : Nat) : c.cycles ≤ (c.steps count).cycles := by
  induction count generalizing c with
  | zero => exact UInt64.le_refl _
  | succ count ih => exact UInt64.le_trans (cycles_le_step c) (ih c.step)

/-! ## Pushing the status register -/

/-- What an instruction that pushes the status register does to the bus: it has no operand. -/
theorem exists_worked {mnemonic : Mnemonic} (h : c.stop = none) (hnext : c.mnemonic = some mnemonic)
    (hkind : mnemonic = .php ∨ mnemonic = .brk) :
    ∃ worked, Worked (c.registers.advance 1) mnemonic.traffic .none worked ∧
      c.accesses 1 = .read c.registers.pc c.opcode :: worked := by
  obtain ⟨op, hop, rfl⟩ := exists_decode_of_mnemonic hnext
  have hmode := mode_of_decode hop hkind
  have hlength : op.length = 1 := by rw [Opcode.length, hmode]; rfl
  obtain ⟨found, worked, operand, hfound, hworked, haccesses⟩ := exists_found_and_worked h hop
  rw [hmode] at hfound
  rw [hlength] at hworked
  cases hfound
  exact ⟨worked, hworked, haccesses⟩

/-- A step with an instruction that pushes halts exactly where the bytes do not fit. -/
theorem halted_step_iff {mnemonic : Mnemonic} (h : c.stop = none)
    (hnext : c.mnemonic = some mnemonic) (hpulls : mnemonic.pulls = 0) :
    c.step.halted = true ↔ c.registers.sp.toNat < mnemonic.pushes := by
  obtain ⟨op, hop, rfl⟩ := exists_decode_of_mnemonic hnext
  have hlt := c.registers.sp.toNat_lt
  rw [halted, fault_step_of_decode h hop, Option.isSome_iff_ne_none, ne_eq,
    Registers.stackFault_eq_none, hpulls]
  omega

theorem accesses_of_php (h : c.stop = none) (hnext : c.mnemonic = some .php) :
    c.accesses 1 = .read c.registers.pc c.opcode ::
      if c.step.halted then [] else pushed c.registers.sp [c.registers.flags.toByte] := by
  obtain ⟨worked, hworked, haccesses⟩ := exists_worked h hnext (Or.inl rfl)
  have hhalted := halted_step_iff h hnext rfl
  rw [haccesses]
  cases hworked with
  | push hroom => rw [if_neg (by rw [hhalted]; exact Nat.not_lt.2 hroom)]; rfl
  | noPush hlow => rw [if_pos (hhalted.2 hlow)]

theorem accesses_of_brk (h : c.stop = none) (hnext : c.mnemonic = some .brk) :
    ∃ low high, c.accesses 1 = .read c.registers.pc c.opcode ::
      if c.step.halted then []
      else pushed c.registers.sp
          [highByte (c.registers.pc + 2), lowByte (c.registers.pc + 2),
            { c.registers.flags with software := true : Flags }.toByte] ++
        [.read 0xFFFE low, .read 0xFFFF high] := by
  obtain ⟨worked, hworked, haccesses⟩ := exists_worked h hnext (Or.inr rfl)
  have hhalted := halted_step_iff h hnext rfl
  have hpc : (c.registers.advance 1).pc + 1 = c.registers.pc + 2 := by
    rw [Registers.advance_pc, UInt16.add_assoc]
    rfl
  rw [haccesses]
  cases hworked with
  | interrupt hroom low high =>
    refine ⟨low, high, ?_⟩
    rw [if_neg (by rw [hhalted]; exact Nat.not_lt.2 hroom), ← hpc]
    rfl
  | noInterrupt hlow => exact ⟨0, 0, by rw [if_pos (hhalted.2 hlow)]⟩

/-! ## From the first reset on -/

/-- What can be done to a processor. -/
inductive Turn where
  | step
  | reset
  deriving DecidableEq, Repr

/-- One step, or a reset. -/
def turn (c : Cpu β) : Turn → Cpu β
  | .step => c.step
  | .reset => c.reset

/-- Steps and resets, one after the other. -/
def turns (turns : List Turn) (c : Cpu β) : Cpu β := turns.foldl turn c

theorem turns_append_singleton (before : List Turn) (last : Turn) (c : Cpu β) :
    c.turns (before ++ [last]) = (c.turns before).turn last := by
  rw [turns, List.foldl_append]
  rfl

theorem turns_append_step (before : List Turn) (c : Cpu β) :
    c.turns (before ++ [.step]) = (c.turns before).step := turns_append_singleton before .step c

theorem turns_append_reset (before : List Turn) (c : Cpu β) :
    c.turns (before ++ [.reset]) = (c.turns before).reset := turns_append_singleton before .reset c

theorem always_turns (bus : β) (turns : List Turn) :
    ((powerOn bus).turns turns).registers.flags.always = true := by
  induction turns using List.reverseRecOn with
  | nil => rfl
  | append_singleton before last ih =>
    cases last with
    | reset => rw [turns_append_reset]; rfl
    | step =>
      rw [turns_append_step]
      rcases marks_step ((powerOn bus).turns before) with hkept | ⟨-, halways⟩
      · exact hkept.1.trans ih
      · exact halways

/-- The processor is running, and its next step will fault with this cause. -/
def Faulting (c : Cpu β) (cause : Fault) : Prop :=
  c.stop = none ∧ c.registers.faultOn c.opcode = some cause

theorem fault_step (c : Cpu β) (cause : Fault) :
    c.step.fault = some cause ↔ c.fault = some cause ∨ c.Faulting cause := by
  cases h : c.stop with
  | none =>
    have hfault : c.fault = none := by rw [fault, h]
    rw [(stepsTo_step h).fault_eq, hfault, Faulting, h]
    simp
  | some stop =>
    rw [step_of_stopped (by simp [h]), Faulting, h]
    simp

/-- The fault on record is that of a step since the last reset, and only steps came after it. -/
theorem fault_turns (bus : β) (turns : List Turn) (cause : Fault) :
    ((powerOn bus).turns turns).fault = some cause ↔
      ∃ before after, turns = before ++ .step :: List.replicate after .step ∧
        ((powerOn bus).turns before).Faulting cause := by
  induction turns using List.reverseRecOn with
  | nil =>
    constructor
    · rintro ⟨⟩
    · rintro ⟨before, after, hturns, -⟩
      simp at hturns
  | append_singleton turns last ih =>
    cases last with
    | reset =>
      rw [turns_append_reset]
      constructor
      · rintro ⟨⟩
      · -- the last of these turns is a step
        rintro ⟨before, after, hturns, -⟩
        have hlast := congrArg List.getLast? hturns
        rw [List.getLast?_concat, ← List.replicate_succ, List.replicate_succ', ← List.append_assoc,
          List.getLast?_concat] at hlast
        cases hlast
    | step =>
      rw [turns_append_step, fault_step, ih]
      constructor
      · rintro (⟨before, after, rfl, hfaulting⟩ | hfaulting)
        · refine ⟨before, after + 1, ?_, hfaulting⟩
          rw [List.replicate_succ', List.append_assoc, List.cons_append]
        · exact ⟨turns, 0, rfl, hfaulting⟩
      · rintro ⟨before, after, hturns, hfaulting⟩
        cases after with
        | zero =>
          obtain ⟨rfl, -⟩ := List.append_inj' hturns rfl
          exact Or.inr hfaulting
        | succ after =>
          rw [List.replicate_succ', ← List.cons_append, ← List.append_assoc] at hturns
          obtain ⟨rfl, -⟩ := List.append_inj' hturns rfl
          exact Or.inl ⟨before, after, rfl, hfaulting⟩

end Cpu

/-! ## Both fields of a halt -/

namespace LatchedCpu

variable {β : Type} [Bus β] {c latched : LatchedCpu β}

/-- One step, or a reset. -/
def turn? (c : LatchedCpu β) : Cpu.Turn → Option (LatchedCpu β)
  | .step => c.step?
  | .reset => some c.reset

/-- Steps and resets, one after the other, as far as the emulation survives them. -/
def turns? (turns : List Cpu.Turn) (c : LatchedCpu β) : Option (LatchedCpu β) :=
  turns.foldlM turn? c

theorem turns?_append_singleton (before : List Cpu.Turn) (last : Cpu.Turn) (c : LatchedCpu β) :
    c.turns? (before ++ [last]) = (c.turns? before).bind (·.turn? last) :=
  foldlM_append_singleton turn? c before last

theorem Latched.turn?_cases (h : c.Latched) (turn : Cpu.Turn) :
    (∃ next, c.turn? turn = some next ∧ next.Latched ∧ next.cpu = c.cpu.turn turn) ∨
      c.turn? turn = none ∧ (c.cpu.turn turn).stop = some .counterFull :=
  match turn with
  | .step => h.step?_cases
  | .reset => Or.inl ⟨_, rfl, latched_reset c, cpu_reset c⟩

/-- After every history the latch and the record say the same, and they are the processor's. -/
theorem latched_turns? {bus : β} {turns : List Cpu.Turn}
    (h : (powerOn bus).turns? turns = some latched) :
    latched.Latched ∧ latched.cpu = (Cpu.powerOn bus).turns turns := by
  induction turns using List.reverseRecOn generalizing latched with
  | nil =>
    cases h
    exact ⟨latched_reset _, cpu_reset _⟩
  | append_singleton before last ih =>
    rw [turns?_append_singleton, Option.bind_eq_some_iff] at h
    obtain ⟨c, hbefore, hlast⟩ := h
    obtain ⟨hc, hcpu⟩ := ih hbefore
    rw [Cpu.turns_append_singleton, ← hcpu]
    rcases hc.turn?_cases last with ⟨next, hnext, hlatched, hstep⟩ | ⟨hnone, -⟩
    · rw [hlast] at hnext
      cases hnext
      exact ⟨hlatched, hstep⟩
    · rw [hlast] at hnone
      cases hnone

/-- The emulation does not survive a history in which the counter once had no room. -/
theorem turns?_eq_none_iff {bus : β} {turns : List Cpu.Turn} :
    (powerOn bus).turns? turns = none ↔
      ∃ before, before <+: turns ∧ ((Cpu.powerOn bus).turns before).stop = some .counterFull := by
  induction turns using List.reverseRecOn with
  | nil =>
    refine iff_of_false nofun ?_
    rintro ⟨before, hprefix, hstop⟩
    rw [List.prefix_nil.1 hprefix] at hstop
    cases hstop
  | append_singleton before last ih =>
    simp only [turns?_append_singleton, List.prefix_concat_iff, or_and_right, exists_or,
      exists_eq_left]
    rw [← ih]
    cases hbefore : (powerOn bus).turns? before with
    | none => exact iff_of_true rfl (Or.inr rfl)
    | some c =>
      obtain ⟨hc, hcpu⟩ := latched_turns? hbefore
      rw [Option.bind_some, Cpu.turns_append_singleton, ← hcpu]
      rcases hc.turn?_cases last with ⟨next, hnext, -, hstep⟩ | ⟨hnone, hstop⟩
      · rw [hnext, ← hstep]
        exact iff_of_false nofun fun h => h.elim (stop_cpu_ne_counterFull next) nofun
      · exact iff_of_true hnone (Or.inl hstop)

end LatchedCpu

namespace Cpu

variable {β : Type} [Bus β]

/-- Whatever the bus answers, and however the processor has been stepped and reset since it was
switched on, its unused flag is set. The latch that halts it is set exactly when it has a fault on
record, as long as its counter had room; the fault is that of a step since the last reset, and steps
never turn the counter back. The status bytes that it pushes have the unused bit set, and that of a
software interrupt also has the break bit; the break flag itself is changed by pulls of the status
register only. -/
theorem the_status_register_keeps_its_marks (bus : β) (turns : List Turn) :
    let c := (powerOn bus).turns turns
    c.registers.flags.always = true ∧
    (∀ latched, (LatchedCpu.powerOn bus).turns? turns = some latched →
      (latched.halted = true ↔ ∃ cause, latched.fault = some cause) ∧
        latched.cpu = c ∧ latched.halted = c.halted ∧ latched.fault = c.fault) ∧
    ((LatchedCpu.powerOn bus).turns? turns = none ↔
      ∃ before, before <+: turns ∧ ((powerOn bus).turns before).stop = some .counterFull) ∧
    (∀ cause, c.fault = some cause ↔
      ∃ before after, turns = before ++ .step :: List.replicate after .step ∧
        ((powerOn bus).turns before).Faulting cause) ∧
    (∀ count, c.cycles ≤ (c.steps count).cycles) ∧
    (c.stop = none → c.mnemonic = some .php →
      ∃ status : UInt8, status.toNat.testBit 5 = true ∧
        c.accesses 1 = .read c.registers.pc c.opcode ::
          if c.step.halted then [] else pushed c.registers.sp [status]) ∧
    (c.stop = none → c.mnemonic = some .brk →
      ∃ status low high : UInt8, status.toNat.testBit 5 = true ∧ status.toNat.testBit 4 = true ∧
        c.accesses 1 = .read c.registers.pc c.opcode ::
          if c.step.halted then []
          else pushed c.registers.sp
              [highByte (c.registers.pc + 2), lowByte (c.registers.pc + 2), status] ++
            [.read 0xFFFE low, .read 0xFFFF high]) ∧
    (c.step.registers.flags.software ≠ c.registers.flags.software →
      c.mnemonic = some .plp ∨ c.mnemonic = some .rti) := by
  intro c
  have halways : c.registers.flags.always = true := always_turns bus turns
  refine ⟨halways, fun latched hlatched => ?_, LatchedCpu.turns?_eq_none_iff, fault_turns bus turns,
    cycles_le_steps c, ?_, ?_, ?_⟩
  · obtain ⟨hfields, hcpu⟩ := LatchedCpu.latched_turns? hlatched
    refine ⟨?_, hcpu, ?_, ?_⟩
    · rw [hfields]
      exact Option.isSome_iff_exists
    · rw [← hfields.halted_cpu, hcpu]
    · rw [← LatchedCpu.fault_cpu, hcpu]
  · intro hstop hnext
    refine ⟨_, ?_, accesses_of_php hstop hnext⟩
    rw [(Flags.testBit_toByte _).2, halways]
  · intro hstop hnext
    obtain ⟨low, high, haccesses⟩ := accesses_of_brk hstop hnext
    refine ⟨_, low, high, ?_, (Flags.testBit_toByte _).1, haccesses⟩
    rw [(Flags.testBit_toByte _).2]
    exact halways
  · intro hchanged
    rcases marks_step c with hkept | ⟨hpulls, -⟩
    · exact absurd hkept.2 hchanged
    · exact hpulls

/-- The status byte that a software interrupt pushes, after one interrupt and a reset, which leaves
the latch open. -/
theorem the_status_register_keeps_its_marks_on_interrupt :
    let c := (powerOn Store.blank).turns [.step, .reset]
    (c.stop = none ∧ c.mnemonic = some .brk) ∧
      (∃ latched, (LatchedCpu.powerOn Store.blank).turns? [.step, .reset] = some latched ∧
        latched.halted = false ∧ latched.cpu = c) ∧
      ∃ status low high : UInt8, status.toNat.testBit 5 = true ∧ status.toNat.testBit 4 = true ∧
        c.accesses 1 =
          [.read 0 0, .write 0x01FD 0, .write 0x01FC 2, .write 0x01FB status,
            .read 0xFFFE low, .read 0xFFFF high] := by
  intro c
  have hstop : c.stop = none := rfl
  have hnext : c.mnemonic = some .brk := by decide +kernel
  obtain ⟨-, hlatched, -, -, -, -, hbrk, -⟩ :=
    the_status_register_keeps_its_marks Store.blank [.step, .reset]
  obtain ⟨latched, hturns⟩ := Option.isSome_iff_exists.1
    (show ((LatchedCpu.powerOn Store.blank).turns? [.step, .reset]).isSome = true by
      decide +kernel)
  obtain ⟨-, hcpu, hhalted, -⟩ := hlatched latched hturns
  obtain ⟨status, low, high, halways, hsoftware, haccesses⟩ := hbrk hstop hnext
  have hcompletes : c.step.halted = false := by decide +kernel
  have hopcode : c.opcode = 0 := by decide +kernel
  have hpc : c.registers.pc = 0 := by decide +kernel
  have hsp : c.registers.sp = 0xFD := rfl
  refine ⟨⟨hstop, hnext⟩, ⟨latched, hturns, hhalted, hcpu⟩, status, low, high, halways, hsoftware,
    haccesses.trans ?_⟩
  rw [hcompletes, hopcode, hpc, hsp]
  rfl

end Cpu

end Challenger1P
