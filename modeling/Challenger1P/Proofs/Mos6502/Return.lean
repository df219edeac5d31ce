import Challenger1P.Proofs.Mos6502.BoundedStack
import Challenger1P.Proofs.Mos6502.Faults

/-!
# Calls and returns

A subroutine call puts the address of its own last byte on the stack, and the return goes on after
that; a software interrupt puts on the address after the byte that follows it, and the return goes
on there. Whatever happens in between, a return that finds what the call left (`Returning`) leads
back to it.

* `stackBytes_call`: what a call puts on the byte list of the stack.
* `step_of_return`: what a return makes of the top of it.
-/

namespace Challenger1P

open StackMemory

/-- In the whole matrix, the lengths of the calls and returns, and what the returns cost. -/
theorem calls_and_returns_of_decode {opcode : UInt8} {op : Opcode} (h : decode opcode = some op) :
    (op.mnemonic = .jsr → op.length = 3) ∧ (op.mnemonic = .brk → op.length = 1) ∧
      (op.mnemonic = .rts ∨ op.mnemonic = .rti → op.length = 1 ∧ op.cycles = 6) :=
  of_decode (P := fun op =>
    (op.mnemonic = .jsr → op.length = 3) ∧ (op.mnemonic = .brk → op.length = 1) ∧
      (op.mnemonic = .rts ∨ op.mnemonic = .rti → op.length = 1 ∧ op.cycles = 6))
    (by decide +kernel) h

namespace Cpu

variable {β : Type} [Bus β] {c d : Cpu β} {op : Opcode}

/-- What the next instruction is, if the opcode has one. -/
def mnemonic (c : Cpu β) : Option Mnemonic := (decode c.opcode).map (·.mnemonic)

theorem exists_decode_of_mnemonic {mnemonic : Mnemonic} (h : c.mnemonic = some mnemonic) :
    ∃ op, decode c.opcode = some op ∧ op.mnemonic = mnemonic := Option.map_eq_some_iff.1 h

variable [StackMemory β]

theorem Located.stackBytes_eq {operand : Operand} {bus : β} {log : List Access}
    (h : c.Located op operand bus log) (sp : UInt8) : stackBytes sp bus = stackBytes sp c.bus := by
  have hres := stackBytes_run_of_writeFree ((c.registers.advance 1).resolve_writeFree op.mode) sp
    c.busFetched
  rw [h.run_eq] at hres
  exact hres.trans (stackBytes_read sp c.bus c.registers.pc)

/-! ## Calling -/

/-- An instruction that pushes, and then neither writes nor moves the stack pointer, leaves its
bytes on top of the stack, the last one first. -/
theorem stackBytes_afterPush {r : Registers} (values : List UInt8)
    {next : Registers → Transaction Outcome} (h : values.length ≤ r.sp.toNat)
    (hfree : ∀ r, (next r).WriteFree)
    (hsp : ∀ r, (next r).Ensures fun outcome => ∀ done, outcome = .ok done → done.1.sp = r.sp)
    {bus after : β} {done : Registers × Nat}
    (hrun : (r.afterPush values next).run bus = (.ok done, after)) :
    stackBytes done.1.sp after = values.reverse ++ stackBytes r.sp bus := by
  rw [Registers.afterPush_of_le h, Transaction.run_bind] at hrun
  have hbytes := stackBytes_writeDown h bus
  have hdone := (hsp { r with sp := ((writeDown r.sp values).run bus).1 }).run
    ((writeDown r.sp values).run bus).2
  have hafter := stackBytes_run_of_writeFree
    (hfree { r with sp := ((writeDown r.sp values).run bus).1 }) done.1.sp
    ((writeDown r.sp values).run bus).2
  rw [hrun] at hdone hafter
  rw [hafter, hdone _ rfl, hbytes, List.foldl_flip_cons_eq_append']

theorem stackBytes_jsr {r : Registers} {address : UInt16} {bus after : β} {done : Registers × Nat}
    (h : 2 ≤ r.sp.toNat) (hrun : (r.execute .jsr (.address address)).run bus = (.ok done, after)) :
    stackBytes done.1.sp after =
      [lowByte (r.pc - 1), highByte (r.pc - 1)] ++ stackBytes r.sp bus := by
  refine stackBytes_afterPush (r := r) [_, _] h ?_ ?_ hrun
  · exact fun _ => trivial
  · rintro _ _ ⟨⟩
    rfl

theorem stackBytes_brk {r : Registers} {operand : Operand} {bus after : β} {done : Registers × Nat}
    (h : 3 ≤ r.sp.toNat) (hrun : (r.execute .brk operand).run bus = (.ok done, after)) :
    stackBytes done.1.sp after =
      [{ r.flags with software := true : Flags }.toByte, lowByte (r.pc + 1), highByte (r.pc + 1)] ++
        stackBytes r.sp bus := by
  refine stackBytes_afterPush (r := r) [_, _, _] h ?_ ?_ hrun
  · exact fun _ _ _ => trivial
  · rintro _ _ _ _ ⟨⟩
    rfl

/-- What a call leaves on the stack, the top first: the address of the last byte that the return
skips, and for an interrupt the status above it. -/
def callBytes (r : Registers) : Mnemonic → List UInt8
  | .jsr => [lowByte (r.pc + 2), highByte (r.pc + 2)]
  | .brk =>
    [{ r.flags with software := true : Flags }.toByte, lowByte (r.pc + 2), highByte (r.pc + 2)]
  | _ => []

/-- A call that does not fault leaves these bytes on top of the stack. -/
theorem stackBytes_call {call : Mnemonic} (h : c.stop = none) (hcall : c.mnemonic = some call)
    (hkind : call = .jsr ∨ call = .brk) (hcompletes : c.step.halted = false) :
    call.pushes ≤ c.registers.sp.toNat ∧
      stackBytes c.step.registers.sp c.step.bus =
        callBytes c.registers call ++ stackBytes c.registers.sp c.bus := by
  obtain ⟨op, hop, rfl⟩ := exists_decode_of_mnemonic hcall
  obtain ⟨hjsr, hbrk, -⟩ := calls_and_returns_of_decode hop
  have hfits := stackFault_eq_none_of_step h hop hcompletes
  obtain ⟨operand, bus, log, final, extra, after, hloc, hrun, hstep, -⟩ :=
    exists_completed h hop hfits
  obtain ⟨hroom, -⟩ := Registers.stackFault_eq_none.1 hfits
  have htakes := hloc.takes
  refine ⟨hroom, ?_⟩
  rw [hstep, registers_charge, bus_charge, ← hloc.stackBytes_eq c.registers.sp]
  rcases hkind with hkind | hkind
  · have hlast : (c.registers.advance op.length).pc - 1 = c.registers.pc + 2 := by
      rw [hjsr hkind, Registers.advance_pc, UInt16.sub_eq_iff_eq_add, UInt16.add_assoc]
      rfl
    rw [hkind] at hroom htakes hrun ⊢
    obtain ⟨address, rfl⟩ := Operand.eq_address_of_kind (eq_of_beq htakes)
    rw [callBytes, ← hlast]
    exact stackBytes_jsr (r := c.registers.advance op.length) hroom hrun
  · have hnext : (c.registers.advance op.length).pc + 1 = c.registers.pc + 2 := by
      rw [hbrk hkind, Registers.advance_pc, UInt16.add_assoc]
      rfl
    rw [hkind] at hroom hrun ⊢
    rw [callBytes, ← hnext]
    exact stackBytes_brk (r := c.registers.advance op.length) hroom hrun

/-! ## Returning -/

/-- An instruction that pulls, and only computes registers from what it pulled. -/
theorem run_afterPull_settled {count : Nat} (g : Vector UInt8 count → Registers → Registers)
    {r : Registers} (h : r.sp.toNat + count ≤ 255) (bus : β) :
    ∃ values after, values.toList = (stackBytes r.sp bus).take count ∧
      (r.afterPull count fun values r => (g values r).settled).run bus =
        (.ok (g values { r with sp := r.sp + UInt8.ofNat count }, 0), after) := by
  obtain ⟨hvalues, -⟩ := stackBytes_readUp h bus
  refine ⟨((readUp r.sp count).run bus).1.1, ((readUp r.sp count).run bus).2, hvalues, ?_⟩
  rw [Registers.afterPull_of_le h, Transaction.run_bind, (readUp_sp r.sp count).run bus]
  rfl

/-- A step that makes a return. -/
theorem step_of_return {back : Mnemonic} {g : Vector UInt8 back.pulls → Registers → Registers}
    (h : d.stop = none) (hback : d.mnemonic = some back) (hkind : back = .rts ∨ back = .rti)
    (hex : ∀ (r : Registers) (operand : Operand), r.execute back operand =
      r.afterPull back.pulls fun values r => (g values r).settled)
    (hfits : d.registers.stackFault back = none) :
    ∃ values, values.toList = (stackBytes d.registers.sp d.bus).take back.pulls ∧
      d.step = charge
        { registers := g values
            { d.registers.advance 1 with sp := d.registers.sp + UInt8.ofNat back.pulls }
          cycles := d.cycles, bus := d.step.bus } 6 ∧
      ∀ access ∈ d.accesses 1, access.isWrite = false := by
  obtain ⟨op, hop, rfl⟩ := exists_decode_of_mnemonic hback
  obtain ⟨-, -, hcost⟩ := calls_and_returns_of_decode hop
  obtain ⟨hlength, hcycles⟩ := hcost hkind
  obtain ⟨operand, bus, log, final, extra, after, hloc, hrun, hstep, haccesses⟩ :=
    exists_completed h hop hfits
  obtain ⟨-, hroom⟩ := Registers.stackFault_eq_none.1 hfits
  obtain ⟨values, after', hvalues, hpull⟩ :=
    run_afterPull_settled g (r := d.registers.advance op.length) hroom bus
  rw [hex, hpull] at hrun
  cases hrun
  refine ⟨values, hvalues.trans ?_, ?_, ?_⟩
  · exact congrArg (List.take _) (hloc.stackBytes_eq d.registers.sp)
  · rw [hstep, bus_charge, hlength, hcycles]
    rfl
  · intro access hmem
    rw [haccesses] at hmem
    rcases List.mem_append.1 hmem with hmem | hmem
    · exact hloc.isWrite access hmem
    · rw [hex, Registers.afterPull_of_le (r := d.registers.advance op.length) hroom,
        Transaction.accesses_bind] at hmem
      rcases List.mem_append.1 hmem with hmem | hmem
      · exact (readUp_writeFree _ _).accesses _ access hmem
      · cases hmem

/-! ## There and back -/

/-- Of the processors `c` and `d`, the one is about to make a call that will not fault, and the other,
whatever it has been through since, is about to make the return: its stack pointer is where the call
left it, and the bytes that the call left there are still the same. -/
structure Returning (call back : Mnemonic) (c d : Cpu β) : Prop where
  running : c.stop = none
  calls : c.mnemonic = some call
  completes : c.step.halted = false
  running_again : d.stop = none
  returns : d.mnemonic = some back
  sp_eq : d.registers.sp = c.registers.sp - UInt8.ofNat call.pushes
  byteAt_eq : ∀ i < call.pushes, byteAt d.bus (c.registers.sp - UInt8.ofNat i) =
    byteAt c.step.bus (c.registers.sp - UInt8.ofNat i)

/-- On the stack of the return is what the call put there. -/
theorem Returning.take_stackBytes {call back : Mnemonic} (h : Returning call back c d)
    (hkind : call = .jsr ∨ call = .brk) :
    (stackBytes d.registers.sp d.bus).take call.pushes = callBytes c.registers call ∧
      d.registers.sp.toNat + call.pushes = c.registers.sp.toNat := by
  obtain ⟨hroom, hbytes⟩ := stackBytes_call h.running h.calls hkind h.completes
  have hlength : (callBytes c.registers call).length = call.pushes := by
    rcases hkind with rfl | rfl <;> rfl
  have hsp : d.registers.sp.toNat + call.pushes = c.registers.sp.toNat := by
    rw [h.sp_eq, toNat_sub_ofNat hroom]
    omega
  have hstepped : c.step.registers.sp = c.registers.sp - UInt8.ofNat call.pushes := by
    have hcount := congrArg List.length hbytes
    have hlt := c.registers.sp.toNat_lt
    have hlt' := c.step.registers.sp.toNat_lt
    rw [List.length_append, length_stackBytes, length_stackBytes, hlength] at hcount
    rw [← UInt8.toNat_inj, toNat_sub_ofNat hroom]
    omega
  refine ⟨?_, hsp⟩
  rw [h.sp_eq, take_stackBytes_congr hroom h.byteAt_eq, ← hstepped, hbytes, ← hlength,
    List.take_left]

/-- The return pulls what the call put there. -/
theorem Returning.exists_step {call back : Mnemonic} (h : Returning call back c d)
    (hcall : call = .jsr ∨ call = .brk) (hback : back = .rts ∨ back = .rti)
    (hcount : back.pushes = 0 ∧ back.pulls = call.pushes)
    {g : Vector UInt8 back.pulls → Registers → Registers}
    (hex : ∀ (r : Registers) (operand : Operand), r.execute back operand =
      r.afterPull back.pulls fun values r => (g values r).settled) :
    ∃ values, values.toList = callBytes c.registers call ∧
      d.step = charge
        { registers := g values { d.registers.advance 1 with sp := c.registers.sp }
          cycles := d.cycles, bus := d.step.bus } 6 ∧
      ∀ access ∈ d.accesses 1, access.isWrite = false := by
  obtain ⟨hbytes, hsp⟩ := h.take_stackBytes hcall
  have hlt := c.registers.sp.toNat_lt
  have hfits : d.registers.stackFault back = none :=
    Registers.stackFault_eq_none.2 (by omega)
  obtain ⟨values, hvalues, hstep, hreads⟩ :=
    step_of_return h.running_again h.returns hback hex hfits
  have hrestored : d.registers.sp + UInt8.ofNat back.pulls = c.registers.sp := by
    rw [h.sp_eq, hcount.2, UInt8.sub_add_cancel]
  rw [hrestored] at hstep
  rw [← hcount.2] at hbytes
  exact ⟨values, hvalues.trans hbytes, hstep, hreads⟩

theorem Returning.step_rts (h : Returning .jsr .rts c d) :
    d.step = charge
      { registers := { d.registers with pc := c.registers.pc + 3, sp := c.registers.sp }
        cycles := d.cycles, bus := d.step.bus } 6 ∧
    ∀ access ∈ d.accesses 1, access.isWrite = false := by
  obtain ⟨values, hvalues, hstep, hreads⟩ := h.exists_step (Or.inl rfl) (Or.inl rfl) ⟨rfl, rfl⟩
    (g := fun values r => { r with pc := word values[0] values[1] + 1 }) fun _ _ => rfl
  obtain rfl : values = #v[_, _] := Vector.toList_inj.1 hvalues
  have hpc : word (lowByte (c.registers.pc + 2)) (highByte (c.registers.pc + 2)) + 1 =
      c.registers.pc + 3 := by
    rw [word_lowByte_highByte, UInt16.add_assoc]
    rfl
  exact ⟨hpc ▸ hstep, hreads⟩

theorem Returning.step_rti (h : Returning .brk .rti c d) :
    d.step = charge
      { registers :=
          { d.registers with
            pc := c.registers.pc + 2, sp := c.registers.sp
            flags := { c.registers.flags with software := false, always := true } }
        cycles := d.cycles, bus := d.step.bus } 6 ∧
    ∀ access ∈ d.accesses 1, access.isWrite = false := by
  obtain ⟨values, hvalues, hstep, hreads⟩ := h.exists_step (Or.inr rfl) (Or.inr rfl) ⟨rfl, rfl⟩
    (g := fun values r =>
      { r with
        flags := { Flags.ofByte values[0] with software := false, always := true }
        pc := word values[1] values[2] }) fun _ _ => rfl
  obtain rfl : values = #v[_, _, _] := Vector.toList_inj.1 hvalues
  have hpc := word_lowByte_highByte (c.registers.pc + 2)
  have hstatus := Flags.ofByte_toByte { c.registers.flags with software := true }
  refine ⟨hstep.trans ?_, hreads⟩
  show charge { registers := { d.registers with
      pc := word (lowByte (c.registers.pc + 2)) (highByte (c.registers.pc + 2))
      sp := c.registers.sp
      flags := { Flags.ofByte { c.registers.flags with software := true : Flags }.toByte with
        software := false, always := true } }, cycles := _, bus := _ } 6 = _
  rw [hpc, hstatus]

/-- A return that finds on the stack what the call left goes on after the call: past all three bytes
of a subroutine call, past the opcode and one more byte of an interrupt. It has the stack pointer
from before the call, costs six cycles, writes nothing and leaves the other registers as they are;
only the flags after an interrupt are those from before it, with the break flag clear and the unused
one set. -/
theorem returns_go_on_after_their_calls {c d : Cpu β} :
    (Returning .jsr .rts c d →
      d.step = charge
        { registers := { d.registers with pc := c.registers.pc + 3, sp := c.registers.sp }
          cycles := d.cycles, bus := d.step.bus } 6 ∧
      ∀ access ∈ d.accesses 1, access.isWrite = false) ∧
    (Returning .brk .rti c d →
      d.step = charge
        { registers :=
            { d.registers with
              pc := c.registers.pc + 2, sp := c.registers.sp
              flags := { c.registers.flags with software := false, always := true } }
          cycles := d.cycles, bus := d.step.bus } 6 ∧
      (d.step.registers.flags = c.registers.flags ↔
        c.registers.flags.software = false ∧ c.registers.flags.always = true) ∧
      ∀ access ∈ d.accesses 1, access.isWrite = false) := by
  refine ⟨Returning.step_rts, fun h => ?_⟩
  obtain ⟨hstep, hreads⟩ := h.step_rti
  refine ⟨hstep, ?_, hreads⟩
  rw [hstep, registers_charge]
  constructor
  · intro hrestored
    rw [← hrestored]
    exact ⟨rfl, rfl⟩
  · rintro ⟨hsoftware, halways⟩
    show { c.registers.flags with software := false, always := true : Flags } = c.registers.flags
    rw [← hsoftware, ← halways]

/-- A subroutine that pushes and pulls, called across the end of memory, and a software interrupt at
its end, with the break flag set before. -/
theorem returns_go_on_after_their_calls_around_the_end :
    let program : Store :=
      (Store.blank.load 0xFFFD [0x20, 0x00, 0x03]).load 0x0300 [0x48, 0x68, 0x60]
    let vector : Store := (Store.blank.set 0xFFFE 0x40).set 0x0040 0x40
    let c : Cpu Store := { registers := { sp := 0xFD, pc := 0xFFFD }, bus := program }
    let i : Cpu Store :=
      { registers := { sp := 3, pc := 0xFFFF, flags := { software := true, carry := true } }
        bus := vector }
    (Returning .jsr .rts c (c.step.steps 2) ∧
      (c.step.steps 2).step.registers.pc = 0 ∧ (c.step.steps 2).step.registers.sp = 0xFD) ∧
    (Returning .brk .rti i i.step ∧
      i.step.step.registers.pc = 1 ∧
      i.step.step.registers.flags = { carry := true, always := true }) := by
  intro program vector c i
  have hsubroutine : Returning .jsr .rts c (c.step.steps 2) := by
    constructor <;> decide +kernel
  have hinterrupt : Returning .brk .rti i i.step := by
    constructor <;> decide +kernel
  obtain ⟨hrts, -⟩ := returns_go_on_after_their_calls.1 hsubroutine
  obtain ⟨hrti, -, -⟩ := returns_go_on_after_their_calls.2 hinterrupt
  refine ⟨⟨hsubroutine, ?_, ?_⟩, hinterrupt, ?_, ?_⟩
  · rw [hrts, registers_charge]
    decide +kernel
  · rw [hrts, registers_charge]
  · rw [hrti, registers_charge]
    decide +kernel
  · rw [hrti, registers_charge]

end Cpu

end Challenger1P
