import Mathlib.Data.List.Basic
import Challenger1P.Proofs.Mos6502.Cost
import Challenger1P.Proofs.Mos6502.Semantics
import Challenger1P.Proofs.Mos6502.Traffic

/-!
# Where the program goes on, and at what cost

An instruction that completes leaves the program counter behind its last byte, unless it is a
branch, a jump, a call or a return. Where those lead is settled by the bytes that are read for
them: a distance, an address, a word from the stack or the interrupt vector. `LeadsTo` says so for
the accesses of a whole step, and they leave no choice (`LeadsTo.unique`).

* `perform_pc`: an action that redirects nothing leaves the program counter alone.
* `leadsTo_of_completed`: what a completed instruction makes of the program counter.
-/

namespace Challenger1P

/-! ## Addresses as numbers -/

theorem add_ofNat_eq_wide (w : UInt16) (n : Nat) : w + UInt16.ofNat n = wide (w.toNat + n) := by
  rw [← UInt16.toNat_inj, wide, UInt16.toNat_add, UInt16.toNat_ofNat', UInt16.toNat_ofNat']
  omega

/-- A branch counts its distance, with the sign, from behind its two bytes. -/
theorem displace_eq (pc : UInt16) (distance : UInt8) :
    displace (pc + 2) distance = wide (pc.toNat + 2 + signed distance) := by
  have := pc.toNat_lt
  have := distance.toNat_lt
  have hpast : (pc + 2).toNat = (pc.toNat + 2) % 65536 := UInt16.toNat_add pc 2
  rw [displace, signBit_eq_decide, wide, signed]
  by_cases hsign : 128 ≤ distance.toNat
  · simp only [hsign, decide_true, if_true]
    rw [← UInt16.toNat_inj, UInt16.toNat_sub, UInt16.toNat_add, UInt8.toNat_toUInt16, hpast,
      UInt16.toNat_ofNat', show (256 : UInt16).toNat = 256 from rfl]
    omega
  · simp only [hsign, decide_false, if_false, Bool.false_eq_true]
    rw [← UInt16.toNat_inj, UInt16.toNat_add, UInt8.toNat_toUInt16, hpast, UInt16.toNat_ofNat']
    omega

/-! ## The specification -/

/-- The ways in which an instruction can go on. -/
inductive Course where
  /-- Behind its last byte. -/
  | onwards
  /-- A signed distance from there, if the flags say so. -/
  | branch (taken : Flags → Bool)
  /-- At the address that its mode finds. -/
  | found
  /-- Behind the address on the stack. -/
  | afterCall
  /-- At the address on the stack, which is under the status. -/
  | afterInterrupt
  /-- At the address in the interrupt vector. -/
  | vector

/-- How each mnemonic goes on. -/
def Mnemonic.course (mnemonic : Mnemonic) : Course :=
  match mnemonic.condition?, mnemonic with
  | some taken, _ => .branch taken
  | none, .jmp => .found
  | none, .jsr => .found
  | none, .rts => .afterCall
  | none, .rti => .afterInterrupt
  | none, .brk => .vector
  | none, _ => .onwards

/-- A step of `op` that makes these accesses, from registers `r`, goes on at this place. Places are
counted modulo 65536. -/
def LeadsTo (r : Registers) (op : Opcode) (log : List Access) (next : UInt16) : Prop :=
  match op.mnemonic.course with
  | .onwards => next = wide (r.pc.toNat + op.length)
  | .branch taken =>
    if taken r.flags then
      ∃ opcode distance, log = [.read r.pc opcode, .read (r.pc + 1) distance] ∧
        next = wide (r.pc.toNat + 2 + signed distance)
    else next = wide (r.pc.toNat + 2)
  | .found =>
    ∃ opcode found worked, log = .read r.pc opcode :: (found ++ worked) ∧
      Found r op.mode found (.address next)
  | .afterCall =>
    ∃ opcode low high, log = .read r.pc opcode :: pulled r.sp [low, high] ∧
      next = wide (low.toNat + 256 * high.toNat + 1)
  | .afterInterrupt =>
    ∃ opcode status low high, log = .read r.pc opcode :: pulled r.sp [status, low, high] ∧
      next = wide (low.toNat + 256 * high.toNat)
  | .vector =>
    ∃ before low high, log = before ++ [.read 0xFFFE low, .read 0xFFFF high] ∧
      next = wide (low.toNat + 256 * high.toNat)

/-- A mode finds one thing in given accesses. -/
theorem Found.operand_unique {r : Registers} {mode : Mode} {found found' rest rest' : List Access}
    {operand operand' : Operand} (h : Found r mode found operand)
    (h' : Found r mode found' operand') (hlog : found ++ rest = found' ++ rest') :
    operand = operand' := by
  cases h <;> cases h' <;> simp_all

/-- The accesses of a step leave no choice. -/
theorem LeadsTo.unique {r : Registers} {op : Opcode} {log : List Access} {next next' : UInt16}
    (h : LeadsTo r op log next) (h' : LeadsTo r op log next') : next = next' := by
  unfold LeadsTo at h h'
  generalize op.mnemonic.course = course at h h'
  cases course with
  | onwards => exact h.trans h'.symm
  | branch taken =>
    dsimp only at h h'
    split at h
    · rename_i htaken
      rw [if_pos htaken] at h'
      obtain ⟨_, distance, rfl, rfl⟩ := h
      obtain ⟨_, distance', hlog, rfl⟩ := h'
      simp_all
    · rename_i htaken
      rw [if_neg htaken] at h'
      exact h.trans h'.symm
  | found =>
    obtain ⟨_, found, _, rfl, hfound⟩ := h
    obtain ⟨_, found', _, hlog, hfound'⟩ := h'
    exact Operand.address.inj (hfound.operand_unique hfound' (List.cons.inj hlog).2)
  | afterCall =>
    obtain ⟨_, low, high, rfl, rfl⟩ := h
    obtain ⟨_, low', high', hlog, rfl⟩ := h'
    simp_all [pulled]
  | afterInterrupt =>
    obtain ⟨_, _, low, high, rfl, rfl⟩ := h
    obtain ⟨_, _, low', high', hlog, rfl⟩ := h'
    simp_all [pulled]
  | vector =>
    obtain ⟨_, low, high, rfl, rfl⟩ := h
    obtain ⟨_, low', high', hlog, rfl⟩ := h'
    obtain ⟨-, hread⟩ := List.append_inj' hlog rfl
    simp_all

/-! ## What actions do to the program counter -/

/-- Whether an action may set the program counter. -/
def Action.redirects : Action → Bool
  | .branch _ | .jump | .callSubroutine | .returnFromSubroutine => true
  | .interrupt | .returnFromInterrupt => true
  | _ => false

/-- What a mnemonic does, by how it goes on. -/
theorem Mnemonic.action_of_course (mnemonic : Mnemonic) :
    match mnemonic.course with
    | .onwards => mnemonic.action.redirects = false
    | .branch taken => mnemonic.action = .branch taken ∧ mnemonic.condition? = some taken
    | .found => mnemonic = .jmp ∨ mnemonic = .jsr
    | .afterCall => mnemonic = .rts
    | .afterInterrupt => mnemonic = .rti
    | .vector => mnemonic = .brk := by
  cases mnemonic <;> simp [course, condition?, action, Action.redirects, bitwise]

namespace Registers

open Transaction

variable {r : Registers}

theorem pc_load (r : Registers) (target : Register) (value : UInt8) :
    (r.load target value).pc = r.pc := by
  cases target <;> rfl

/-- An action that does not redirect leaves the program counter alone. -/
theorem perform_pc (r : Registers) (operand : Operand) {action : Action}
    (h : action.redirects = false) :
    (r.perform operand action).Ensures fun outcome =>
      ∀ done, outcome = .ok done → done.1.pc = r.pc := by
  cases action with
  | load target =>
    refine (ensures_true (r.readOperand operand)).bind fun value _ => ?_
    rintro _ ⟨⟩
    exact pc_load r target value
  | store source =>
    cases operand with
    | none | accumulator => rintro _ ⟨⟩
    | address address =>
      rintro _ ⟨⟩
      rfl
  | move value target =>
    rintro _ ⟨⟩
    exact pc_load r target (value r)
  | combine f =>
    refine (ensures_true (r.readOperand operand)).bind fun value _ => ?_
    rintro _ ⟨⟩
    rfl
  | test left f =>
    refine (ensures_true (r.readOperand operand)).bind fun value _ => ?_
    rintro _ ⟨⟩
    rfl
  | modify f =>
    refine (ensures_true (r.readOperand operand)).bind fun value _ => ?_
    cases operand <;> rintro _ ⟨⟩ <;> rfl
  | pushAccumulator | pushFlags =>
    refine afterPush_ensures_or_refused _ (fun _ => by rintro _ ⟨⟩) fun sp => ?_
    rintro _ ⟨⟩
    rfl
  | pullAccumulator =>
    refine afterPull_ensures_or_refused (fun _ => by rintro _ ⟨⟩) fun values sp => ?_
    rintro _ ⟨⟩
    exact pc_load _ _ _
  | pullFlags =>
    refine afterPull_ensures_or_refused (fun _ => by rintro _ ⟨⟩) fun values sp => ?_
    rintro _ ⟨⟩
    rfl
  | setStack | mark f =>
    rintro _ ⟨⟩
    rfl
  | branch | jump | callSubroutine | returnFromSubroutine | interrupt | returnFromInterrupt =>
    cases h

theorem run_branch_eq (taken : Flags → Bool) (address : UInt16) {β : Type} [Bus β] (bus : β) :
    (r.perform (.address address) (.branch taken)).run bus =
        (.ok (if taken r.flags then ({ r with pc := address }, 1) else (r, 0)), bus) ∧
      (r.perform (.address address) (.branch taken)).accesses bus = [] := by
  rw [perform_branch]
  split <;> exact ⟨rfl, rfl⟩

/-- A jump or a call that completes goes on at the address found. -/
theorem execute_found {mnemonic : Mnemonic} (h : mnemonic = .jmp ∨ mnemonic = .jsr)
    (target : UInt16) :
    (r.execute mnemonic (.address target)).Ensures fun outcome =>
      ∀ done, outcome = .ok done → done.1.pc = target := by
  rcases h with rfl | rfl
  · rintro _ ⟨⟩
    rfl
  · refine afterPush_ensures_or_refused _ (fun _ => by rintro _ ⟨⟩) fun sp => ?_
    rintro _ ⟨⟩
    rfl

/-- A pull that only computes registers from what it pulled. -/
theorem exists_pulled {β : Type} [Bus β] {count : Nat}
    (g : Vector UInt8 count → Registers → Registers) (h : r.sp.toNat + count ≤ 255) (bus : β) :
    ∃ values : Vector UInt8 count, ∃ sp,
      (r.afterPull count fun values r => (g values r).settled).accesses bus =
          pulled r.sp values.toList ∧
        ((r.afterPull count fun values r => (g values r).settled).run bus).1 =
          .ok (g values { r with sp }, 0) := by
  rw [afterPull_of_le h, accesses_bind, accesses_readUp h, run_bind]
  exact ⟨_, _, List.append_nil _, rfl⟩

theorem execute_rts (operand : Operand) (h : r.sp.toNat + 2 ≤ 255) {β : Type} [Bus β] (bus : β) :
    ∃ low high final, (r.execute .rts operand).accesses bus = pulled r.sp [low, high] ∧
      ((r.execute .rts operand).run bus).1 = .ok (final, 0) ∧ final.pc = word low high + 1 := by
  obtain ⟨values, sp, haccesses, hfinal⟩ := exists_pulled
    (fun (values : Vector UInt8 2) r => { r with pc := word values[0] values[1] + 1 }) h bus
  obtain ⟨low, high, hlist⟩ := List.length_eq_two.1 values.length_toList
  obtain rfl : values = #v[low, high] := Vector.toList_inj.1 hlist
  exact ⟨low, high, _, haccesses, hfinal, rfl⟩

theorem execute_rti (operand : Operand) (h : r.sp.toNat + 3 ≤ 255) {β : Type} [Bus β] (bus : β) :
    ∃ status low high final,
      (r.execute .rti operand).accesses bus = pulled r.sp [status, low, high] ∧
      ((r.execute .rti operand).run bus).1 = .ok (final, 0) ∧ final.pc = word low high := by
  obtain ⟨values, sp, haccesses, hfinal⟩ := exists_pulled
    (fun (values : Vector UInt8 3) r => { r with
      flags := { Flags.ofByte values[0] with software := false, always := true }
      pc := word values[1] values[2] }) h bus
  obtain ⟨status, low, high, hlist⟩ := List.length_eq_three.1 values.length_toList
  obtain rfl : values = #v[status, low, high] := Vector.toList_inj.1 hlist
  exact ⟨status, low, high, _, haccesses, hfinal, rfl⟩

/-- The interrupt vector is read when the bytes are pushed. -/
theorem execute_brk (operand : Operand) (h : 3 ≤ r.sp.toNat) {β : Type} [Bus β] (bus : β) :
    ∃ before low high final,
      (r.execute .brk operand).accesses bus = before ++ [.read 0xFFFE low, .read 0xFFFF high] ∧
      ((r.execute .brk operand).run bus).1 = .ok (final, 0) ∧ final.pc = word low high := by
  rw [execute, Mnemonic.action, perform_interrupt, accesses_afterPush (by exact h),
    afterPush_of_le (by exact h), run_bind]
  exact ⟨_, _, _, _, rfl, rfl, rfl⟩

end Registers

namespace Cpu

variable {β : Type} [Bus β] {c : Cpu β} {op : Opcode} {operand : Operand} {bus after : β}
  {log : List Access} {final : Registers} {extra : Nat}

/-- In the whole matrix, branches have distances. -/
theorem relative_of_decode {opcode : UInt8} {op : Opcode} (h : decode opcode = some op) :
    op.mnemonic.condition?.isSome = true → op.mode = .relative :=
  of_decode (P := fun op => op.mnemonic.condition?.isSome = true → op.mode = .relative)
    (by decide +kernel) h

/-- An instruction without an operand reads nothing before it works. -/
theorem Located.log_of_takes_none (h : c.Located op operand bus log)
    (htakes : op.mnemonic.takes .memory = false ∧ op.mnemonic.takes .accumulator = false) :
    log = [.read c.registers.pc c.opcode] := by
  obtain ⟨found, hfound, rfl⟩ := h.found
  have hkind := h.takes
  generalize op.mode = mode at hfound
  cases hfound <;> simp_all [Operand.kind]

/-! ## A completed instruction, by its course -/

section Completed

variable (hloc : c.Located op operand bus log)
variable (hrun : ((c.registers.advance op.length).execute op.mnemonic operand).run bus =
    (.ok (final, extra), after))

include hrun

theorem completed_onwards (h : op.mnemonic.action.redirects = false) :
    final.pc = wide (c.registers.pc.toNat + op.length) := by
  have hpc := ((c.registers.advance op.length).perform_pc operand h).run bus
  rw [show (Registers.perform _ _ _).run bus = _ from hrun] at hpc
  rw [hpc _ rfl]
  exact add_ofNat_eq_wide _ _

include hloc

theorem completed_branch {taken : Flags → Bool} (haction : op.mnemonic.action = .branch taken)
    (hcondition : op.mnemonic.condition? = some taken) :
    if taken c.registers.flags then
      ∃ opcode distance,
        log ++ ((c.registers.advance op.length).execute op.mnemonic operand).accesses bus =
          [.read c.registers.pc opcode, .read (c.registers.pc + 1) distance] ∧
        final.pc = wide (c.registers.pc.toNat + 2 + signed distance)
    else final.pc = wide (c.registers.pc.toNat + 2) := by
  have hmode := relative_of_decode hloc.decode_eq (by rw [hcondition]; rfl)
  have hlength : op.length = 2 := by rw [Opcode.length, hmode]; rfl
  obtain ⟨found, hfound, rfl⟩ := hloc.found
  rw [hmode] at hfound
  cases hfound with | relative distance
  obtain ⟨hbranch, hnothing⟩ := (c.registers.advance op.length).run_branch_eq taken
    (displace (c.registers.pc + 2) distance) bus
  rw [Registers.execute, haction] at hrun ⊢
  rw [hbranch] at hrun
  rw [hnothing]
  cases htaken : taken c.registers.flags
  · rw [show taken (c.registers.advance op.length).flags = false from htaken] at hrun
    cases hrun
    rw [hlength]
    simpa using add_ofNat_eq_wide c.registers.pc 2
  · rw [show taken (c.registers.advance op.length).flags = true from htaken] at hrun
    cases hrun
    exact ⟨_, distance, rfl, displace_eq _ _⟩

theorem completed_found (h : op.mnemonic = .jmp ∨ op.mnemonic = .jsr) :
    ∃ opcode found worked,
      log ++ ((c.registers.advance op.length).execute op.mnemonic operand).accesses bus =
        .read c.registers.pc opcode :: (found ++ worked) ∧
      Found c.registers op.mode found (.address final.pc) := by
  obtain ⟨found, hfound, rfl⟩ := hloc.found
  obtain ⟨target, rfl⟩ : ∃ target, operand = .address target := by
    have htakes := hloc.takes
    rcases h with h | h <;> rw [h] at htakes <;>
      exact Operand.eq_address_of_kind (eq_of_beq htakes)
  have hpc := ((c.registers.advance op.length).execute_found h target).run bus
  rw [hrun] at hpc
  refine ⟨c.opcode, found, _, rfl, ?_⟩
  rw [hpc _ rfl]
  exact hfound

theorem completed_rts (h : op.mnemonic = .rts) :
    ∃ opcode low high,
      log ++ ((c.registers.advance op.length).execute op.mnemonic operand).accesses bus =
        .read c.registers.pc opcode :: pulled c.registers.sp [low, high] ∧
      final.pc = wide (low.toNat + 256 * high.toNat + 1) := by
  obtain ⟨-, hpull⟩ := Registers.stackFault_eq_none.1 (hloc.stackFault_of_completed hrun)
  have hlog := hloc.log_of_takes_none (by rw [h]; exact ⟨rfl, rfl⟩)
  rw [h] at hpull hrun ⊢
  obtain ⟨low, high, _, haccesses, hfinal, hpc⟩ :=
    (c.registers.advance op.length).execute_rts operand hpull bus
  rw [hrun] at hfinal
  cases hfinal
  rw [hlog, haccesses, hpc, word_eq, wide_succ]
  exact ⟨_, low, high, rfl, rfl⟩

theorem completed_rti (h : op.mnemonic = .rti) :
    ∃ opcode status low high,
      log ++ ((c.registers.advance op.length).execute op.mnemonic operand).accesses bus =
        .read c.registers.pc opcode :: pulled c.registers.sp [status, low, high] ∧
      final.pc = wide (low.toNat + 256 * high.toNat) := by
  obtain ⟨-, hpull⟩ := Registers.stackFault_eq_none.1 (hloc.stackFault_of_completed hrun)
  have hlog := hloc.log_of_takes_none (by rw [h]; exact ⟨rfl, rfl⟩)
  rw [h] at hpull hrun ⊢
  obtain ⟨status, low, high, _, haccesses, hfinal, hpc⟩ :=
    (c.registers.advance op.length).execute_rti operand hpull bus
  rw [hrun] at hfinal
  cases hfinal
  rw [hlog, haccesses, hpc, word_eq]
  exact ⟨_, status, low, high, rfl, rfl⟩

theorem completed_brk (h : op.mnemonic = .brk) :
    ∃ before low high,
      log ++ ((c.registers.advance op.length).execute op.mnemonic operand).accesses bus =
        before ++ [.read 0xFFFE low, .read 0xFFFF high] ∧
      final.pc = wide (low.toNat + 256 * high.toNat) := by
  obtain ⟨hpush, -⟩ := Registers.stackFault_eq_none.1 (hloc.stackFault_of_completed hrun)
  rw [h] at hpush hrun ⊢
  obtain ⟨before, low, high, _, haccesses, hfinal, hpc⟩ :=
    (c.registers.advance op.length).execute_brk operand hpush bus
  rw [hrun] at hfinal
  cases hfinal
  rw [haccesses, hpc, word_eq]
  exact ⟨_, low, high, (List.append_assoc _ _ _).symm, rfl⟩

/-- A completed instruction goes on where its accesses lead. -/
theorem leadsTo_of_completed : LeadsTo c.registers op
    (log ++ ((c.registers.advance op.length).execute op.mnemonic operand).accesses bus)
    final.pc := by
  have haction := op.mnemonic.action_of_course
  unfold LeadsTo
  generalize op.mnemonic.course = course at haction ⊢
  cases course with
  | onwards => exact completed_onwards hrun haction
  | branch taken => exact completed_branch hloc hrun haction.1 haction.2
  | found => exact completed_found hloc hrun haction
  | afterCall => exact completed_rts hloc hrun haction
  | afterInterrupt => exact completed_rti hloc hrun haction
  | vector => exact completed_brk hloc hrun haction

end Completed

/-- A step that completes charges what the opcode matrix says, and one cycle more if it is a branch
whose condition the flags met before the step. It goes on where its accesses lead, and nowhere else.
Finding an operand consumes the bytes that the mode is said to have, whatever is read for it. -/
theorem completed_steps_keep_account (c : Cpu β) (h : c.stop = none) (hdone : c.step.stop = none) :
    ∃ op, decode c.opcode = some op ∧
      c.step.cycles.toNat =
        c.cycles.toNat + op.cycles + op.mnemonic.extra c.registers.flags ∧
      (∀ next, c.step.registers.pc = next ↔ LeadsTo c.registers op (c.accesses 1) next) ∧
      ∀ (r : Registers) (bus : β),
        ((r.resolve op.mode).run bus).1.2.pc = wide (r.pc.toNat + op.mode.operandLength) := by
  have hstep := stepsTo_step h
  generalize c.step = next at hstep hdone ⊢
  generalize c.accesses 1 = log at hstep ⊢
  cases hstep with
  | undecoded hop => cases hdone
  | refused hloc hrun => cases hdone
  | @completed op operand bus after log final extra hloc hrun =>
    have hroom := charge_stop_eq_none hdone
    have hleads := leadsTo_of_completed hloc hrun
    refine ⟨op, hloc.decode_eq, ?_, fun next => ?_, fun r bus => ?_⟩
    · rw [toNat_cycles_charge hroom, hloc.extra_eq hrun, Nat.add_assoc]
    · rw [registers_charge]
      exact ⟨fun hnext => hnext ▸ hleads, fun hnext => hleads.unique hnext⟩
    · rw [((r.resolve_ensures op.mode).run bus).2]
      exact add_ofNat_eq_wide _ _

/-- A branch backwards at the end of memory: its distance is at address 0, and it leads from there
to the end of memory again. -/
theorem completed_steps_keep_account_around_the_end :
    let c : Cpu Store :=
      { registers := { pc := 0xFFFF, flags := { carry := true } }
        bus := (Store.blank.set 0xFFFF 0xB0).set 0 0xFD }
    (c.stop = none ∧ c.step.stop = none) ∧
      c.step.cycles.toNat = 3 ∧ c.step.registers.pc = 0xFFFE := by
  intro c
  have hdone : c.step.stop = none := by decide +kernel
  obtain ⟨op, hop, hcycles, hnext, -⟩ := completed_steps_keep_account c rfl hdone
  have hdecoded : decode c.opcode = some ⟨.bcs, .relative, 2, by decide⟩ := by decide +kernel
  obtain rfl := Option.some.inj (hdecoded.symm.trans hop)
  have haccesses : c.accesses 1 = [.read 0xFFFF 0xB0, .read 0 0xFD] := by decide +kernel
  have htarget : (0xFFFE : UInt16) = wide ((0xFFFF : UInt16).toNat + 2 + signed 0xFD) := by
    decide +kernel
  refine ⟨⟨rfl, hdone⟩, hcycles, (hnext _).2 ?_⟩
  rw [haccesses]
  exact ⟨0xB0, 0xFD, by decide +kernel, htarget⟩

end Cpu

end Challenger1P
