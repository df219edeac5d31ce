import Challenger1P.Memory.Store
import Challenger1P.Proofs.Mos6502.Perform
import Challenger1P.Proofs.Mos6502.Stack
import Challenger1P.Proofs.Mos6502.Step

/-!
# What one step does to the bus

`Trace r log` lists the accesses of one instruction, for a processor with registers `r`: the opcode;
the operand bytes and pointers of its mode (`Found`); what its mnemonic does with the operand
(`Mnemonic.traffic`, `Worked`). The bytes read are left open, and later addresses depend on them.

On every bus the accesses of a step are the one trace that the bus answers.

* `found_resolve`, `worked_execute`: the two parts of an instruction make such accesses.
* `Found.unique`, `Worked.unique`: and a bus leaves no choice in them.
-/

namespace Challenger1P

/-! ## The accesses of an instruction -/

/-- What an instruction does to memory with its operand. -/
inductive Traffic where
  | none
  | read
  | write (source : Register)
  /-- Read, and written back changed. -/
  | rewrite (f : Flags → UInt8 → UInt8)
  | push (values : Registers → List UInt8)
  /-- A push, and then the interrupt vector is read. -/
  | interrupt (values : Registers → List UInt8)
  | pull (count : Nat)

/-- What each mnemonic does to memory. Where bytes are pushed, the program counter is past the
instruction. -/
def Mnemonic.traffic : Mnemonic → Traffic
  | .lda | .ldx | .ldy | .adc | .sbc | .and | .ora | .eor | .bit | .cmp | .cpx | .cpy => .read
  | .sta => .write .a
  | .stx => .write .x
  | .sty => .write .y
  | .inc => .rewrite fun _ value => value + 1
  | .dec => .rewrite fun _ value => value - 1
  | .asl => .rewrite fun _ value => 2 * value
  | .lsr => .rewrite fun _ value => value / 2
  | .rol => .rewrite fun f value => 2 * value + f.carry.toUInt8
  | .ror => .rewrite fun f value => value / 2 + 128 * f.carry.toUInt8
  | .pha => .push fun r => [r.a]
  | .php => .push fun r => [r.flags.toByte]
  -- the address of the last byte of the instruction
  | .jsr => .push fun r => [highByte (r.pc - 1), lowByte (r.pc - 1)]
  -- the address after the byte that follows the opcode
  | .brk => .interrupt fun r =>
    [highByte (r.pc + 1), lowByte (r.pc + 1), { r.flags with software := true }.toByte]
  | .pla | .plp => .pull 1
  | .rts => .pull 2
  | .rti => .pull 3
  | _ => .none

/-- What is read to find the operand of an instruction that starts at the program counter, and the
operand found. An immediate operand is found without reading it. -/
inductive Found (r : Registers) : Mode → List Access → Operand → Prop where
  | implied : Found r .implied [] .none
  | accumulator : Found r .accumulator [] .accumulator
  | immediate : Found r .immediate [] (.address (r.pc + 1))
  | zeroPage (b : UInt8) : Found r .zeroPage [.read (r.pc + 1) b] (.address b.toUInt16)
  | zeroPageX (b : UInt8) :
    Found r .zeroPageX [.read (r.pc + 1) b] (.address (b + r.x).toUInt16)
  | zeroPageY (b : UInt8) :
    Found r .zeroPageY [.read (r.pc + 1) b] (.address (b + r.y).toUInt16)
  | absolute (low high : UInt8) :
    Found r .absolute [.read (r.pc + 1) low, .read (r.pc + 2) high] (.address (word low high))
  | absoluteX (low high : UInt8) :
    Found r .absoluteX [.read (r.pc + 1) low, .read (r.pc + 2) high]
      (.address (word low high + r.x.toUInt16))
  | absoluteY (low high : UInt8) :
    Found r .absoluteY [.read (r.pc + 1) low, .read (r.pc + 2) high]
      (.address (word low high + r.y.toUInt16))
  | indirect (low high targetLow targetHigh : UInt8) :
    Found r .indirect
      [.read (r.pc + 1) low, .read (r.pc + 2) high,
        .read (word low high) targetLow, .read (word low high + 1) targetHigh]
      (.address (word targetLow targetHigh))
  | indirectX (b low high : UInt8) :
    Found r .indirectX
      [.read (r.pc + 1) b, .read (b + r.x).toUInt16 low, .read (b + r.x + 1).toUInt16 high]
      (.address (word low high))
  | indirectY (b low high : UInt8) :
    Found r .indirectY
      [.read (r.pc + 1) b, .read b.toUInt16 low, .read (b + 1).toUInt16 high]
      (.address (word low high + r.y.toUInt16))
  | relative (b : UInt8) :
    Found r .relative [.read (r.pc + 1) b] (.address (displace (r.pc + 2) b))

/-- What is done to memory once the operand is found and the program counter is past it. A push or
pull that does not fit on the stack does nothing. -/
inductive Worked (r : Registers) : Traffic → Operand → List Access → Prop where
  | nothing {operand : Operand} : Worked r .none operand []
  | read (address : UInt16) (value : UInt8) :
    Worked r .read (.address address) [.read address value]
  | write (source : Register) (address : UInt16) :
    Worked r (.write source) (.address address) [.write address (r.get source)]
  | rewrite (f : Flags → UInt8 → UInt8) (address : UInt16) (value : UInt8) :
    Worked r (.rewrite f) (.address address)
      [.read address value, .write address (f r.flags value)]
  | rewriteAccumulator (f : Flags → UInt8 → UInt8) : Worked r (.rewrite f) .accumulator []
  | push {values : Registers → List UInt8} {operand : Operand}
    (h : (values r).length ≤ r.sp.toNat) :
    Worked r (.push values) operand (pushed r.sp (values r))
  | noPush {values : Registers → List UInt8} {operand : Operand}
    (h : r.sp.toNat < (values r).length) : Worked r (.push values) operand []
  | interrupt {values : Registers → List UInt8} {operand : Operand}
    (h : (values r).length ≤ r.sp.toNat) (low high : UInt8) :
    Worked r (.interrupt values) operand
      (pushed r.sp (values r) ++ [.read 0xFFFE low, .read 0xFFFF high])
  | noInterrupt {values : Registers → List UInt8} {operand : Operand}
    (h : r.sp.toNat < (values r).length) : Worked r (.interrupt values) operand []
  | pull {count : Nat} {operand : Operand} (h : r.sp.toNat + count ≤ 255) (values : List UInt8)
    (hlen : values.length = count) : Worked r (.pull count) operand (pulled r.sp values)
  | noPull {count : Nat} {operand : Operand} (h : 255 < r.sp.toNat + count) :
    Worked r (.pull count) operand []

/-- The accesses of one instruction. -/
inductive Trace (r : Registers) : List Access → Prop where
  | undecoded {opcode : UInt8} (hop : decode opcode = none) : Trace r [.read r.pc opcode]
  | decoded {opcode : UInt8} {op : Opcode} {found worked : List Access} {operand : Operand}
    (hop : decode opcode = some op) (hfound : Found r op.mode found operand)
    (hworked : Worked (r.advance op.length) op.mnemonic.traffic operand worked) :
    Trace r (.read r.pc opcode :: (found ++ worked))

/-! ## Every instruction makes such accesses -/

section Made

variable {β : Type} [Bus β] {r : Registers} {operand : Operand}

theorem found_resolve (r : Registers) (mode : Mode) (bus : β) :
    Found r mode (((r.advance 1).resolve mode).accesses bus)
      (((r.advance 1).resolve mode).run bus).1.1 := by
  have hone : r.pc + UInt16.ofNat 1 = r.pc + 1 := rfl
  have htwo : r.pc + 1 + 1 = r.pc + 2 := by rw [UInt16.add_assoc]; rfl
  cases mode <;>
    simp only [Registers.resolve, Registers.fetchByte_eq, Registers.fetchWord_eq, readWord,
      readZeroPageWord, Transaction.bind_eq, Transaction.bind, Transaction.pure_eq,
      Transaction.readByte, Transaction.accesses, Transaction.run, Registers.advance_advance,
      Registers.advance_pc, Registers.advance_x, Registers.advance_y, hone, htwo] <;>
    constructor

namespace Registers

theorem accesses_afterPush {values : List UInt8} (h : values.length ≤ r.sp.toNat)
    (next : Registers → Transaction Outcome) (bus : β) :
    (r.afterPush values next).accesses bus = pushed r.sp values ++
      (next { r with sp := ((writeDown r.sp values).run bus).1 }).accesses
        ((writeDown r.sp values).run bus).2 := by
  rw [afterPush_of_le h, Transaction.accesses_bind, accesses_writeDown h]

end Registers

theorem worked_push (values : Registers → List UInt8) {next : Registers → Transaction Outcome}
    (hnext : ∀ r, ∃ outcome, next r = .done outcome) (bus : β) :
    Worked r (.push values) operand ((r.afterPush (values r) next).accesses bus) := by
  by_cases h : r.sp.toNat < (values r).length
  · rw [Registers.afterPush_of_lt _ h]
    exact .noPush h
  · have hle : (values r).length ≤ r.sp.toNat := by omega
    rw [Registers.accesses_afterPush hle]
    obtain ⟨outcome, houtcome⟩ :=
      hnext { r with sp := ((writeDown r.sp (values r)).run bus).1 }
    rw [houtcome, Transaction.accesses_done, List.append_nil]
    exact .push hle

theorem worked_interrupt (values : Registers → List UInt8)
    {next : Registers → Transaction Outcome}
    (hnext : ∀ r, ∃ outcome : UInt16 → Outcome,
      next r = (readWord interruptVector).bind fun pc => .done (outcome pc)) (bus : β) :
    Worked r (.interrupt values) operand ((r.afterPush (values r) next).accesses bus) := by
  by_cases h : r.sp.toNat < (values r).length
  · rw [Registers.afterPush_of_lt _ h]
    exact .noInterrupt h
  · have hle : (values r).length ≤ r.sp.toNat := by omega
    rw [Registers.accesses_afterPush hle]
    obtain ⟨outcome, houtcome⟩ :=
      hnext { r with sp := ((writeDown r.sp (values r)).run bus).1 }
    rw [houtcome, Transaction.accesses_bind, Transaction.accesses_done, List.append_nil]
    exact .interrupt hle _ _

theorem worked_pull {count : Nat} {next : Vector UInt8 count → Registers → Transaction Outcome}
    (hnext : ∀ values r, ∃ outcome, next values r = .done outcome) (bus : β) :
    Worked r (.pull count) operand ((r.afterPull count next).accesses bus) := by
  by_cases h : 255 < r.sp.toNat + count
  · rw [Registers.afterPull_of_lt h]
    exact .noPull h
  · have hfits : r.sp.toNat + count ≤ 255 := by omega
    obtain ⟨outcome, houtcome⟩ := hnext ((readUp r.sp count).run bus).1.1
      { r with sp := ((readUp r.sp count).run bus).1.2 }
    rw [Registers.afterPull_of_le hfits, Transaction.accesses_bind, accesses_readUp hfits, houtcome,
      Transaction.accesses_done, List.append_nil]
    exact .pull hfits _ Vector.length_toList

theorem worked_execute {mnemonic : Mnemonic} (htakes : mnemonic.takes operand.kind = true)
    (bus : β) : Worked r mnemonic.traffic operand ((r.execute mnemonic operand).accesses bus) := by
  cases mnemonic
  case lda | ldx | ldy | adc | sbc | and | ora | eor | bit | cmp | cpx | cpy =>
    obtain ⟨address, rfl⟩ := Operand.eq_address_of_kind (eq_of_beq htakes)
    exact .read address _
  case sta | stx | sty =>
    obtain ⟨address, rfl⟩ := Operand.eq_address_of_kind (eq_of_beq htakes)
    exact .write _ address
  case inc | dec =>
    obtain ⟨address, rfl⟩ := Operand.eq_address_of_kind (eq_of_beq htakes)
    exact .rewrite _ address _
  case asl | lsr | rol | ror =>
    cases operand with
    | none => cases htakes
    | accumulator => exact .rewriteAccumulator _
    | address address => exact .rewrite _ address _
  case bcc | bcs | bne | beq | bpl | bmi | bvc | bvs =>
    obtain ⟨address, rfl⟩ := Operand.eq_address_of_kind (eq_of_beq htakes)
    show Worked r .none _ ((r.perform _ (.branch _)).accesses bus)
    rw [Registers.perform_branch]
    split <;> exact .nothing
  case jmp =>
    obtain ⟨address, rfl⟩ := Operand.eq_address_of_kind (eq_of_beq htakes)
    exact .nothing
  case jsr =>
    obtain ⟨address, rfl⟩ := Operand.eq_address_of_kind (eq_of_beq htakes)
    exact worked_push _ (fun _ => ⟨_, rfl⟩) bus
  case pha | php => exact worked_push _ (fun _ => ⟨_, rfl⟩) bus
  case brk => exact worked_interrupt _ (fun _ => ⟨_, rfl⟩) bus
  case pla | plp | rts | rti => exact worked_pull (fun _ _ => ⟨_, rfl⟩) bus
  all_goals exact .nothing

end Made

/-! ## A bus leaves no choice -/

section Unique

variable {β : Type} [Bus β] {r : Registers} {bus : β} {log log' : List Access}

theorem Found.unique {mode : Mode} {operand operand' : Operand} (h : Found r mode log operand)
    (h' : Found r mode log' operand') (ha : Bus.Answers bus log) (ha' : Bus.Answers bus log') :
    log = log' ∧ operand = operand' := by
  cases h <;> cases h' <;> simp_all [Bus.Answers]

theorem Worked.unique {traffic : Traffic} {operand : Operand} (h : Worked r traffic operand log)
    (h' : Worked r traffic operand log') (ha : Bus.Answers bus log)
    (ha' : Bus.Answers bus log') : log = log' := by
  cases h with
  | nothing | write | rewriteAccumulator => cases h'; rfl
  | read address value =>
    cases h'
    rw [ha.1.symm.trans ha'.1]
  | rewrite f address value =>
    cases h'
    rw [ha.1.symm.trans ha'.1]
  | push h | noPush h =>
    cases h' with
    | push h' | noPush h' => first | rfl | omega
  | interrupt h low high =>
    cases h' with
    | interrupt h' low' high' =>
      rw [Bus.answers_append] at ha ha'
      obtain ⟨-, hlow, hhigh, -⟩ := ha
      obtain ⟨-, hlow', hhigh', -⟩ := ha'
      rw [hlow.symm.trans hlow', hhigh.symm.trans hhigh']
    | noInterrupt h' => omega
  | noInterrupt h =>
    cases h' with
    | interrupt h' low' high' => omega
    | noInterrupt h' => rfl
  | pull h values hlen =>
    cases h' with
    | pull h' values' hlen' => rw [Bus.Answers.reads_inj (hlen.trans hlen'.symm) ha ha']
    | noPull h' => omega
  | noPull h =>
    cases h' with
    | pull h' values' hlen' => omega
    | noPull h' => rfl

theorem Trace.unique (h : Trace r log) (h' : Trace r log') (ha : Bus.Answers bus log)
    (ha' : Bus.Answers bus log') : log = log' := by
  cases h with
  | undecoded hop =>
    cases h' with
    | undecoded hop' => rw [ha.1.symm.trans ha'.1]
    | decoded hop' _ _ =>
      rw [ha.1.symm.trans ha'.1, hop'] at hop
      cases hop
  | decoded hop hfound hworked =>
    cases h' with
    | undecoded hop' =>
      rw [ha.1.symm.trans ha'.1, hop'] at hop
      cases hop
    | decoded hop' hfound' hworked' =>
      have hopcode := ha.1.symm.trans ha'.1
      rw [hopcode, hop'] at hop
      obtain rfl := Option.some.inj hop
      have hrest := (Bus.answers_append _ _ _).1 ha.2
      have hrest' := (Bus.answers_append _ _ _).1 ha'.2
      obtain ⟨hfoundEq, hoperand⟩ := hfound.unique hfound' hrest.1 hrest'.1
      subst hfoundEq hoperand
      rw [hopcode, hworked.unique hworked' hrest.2 hrest'.2]

end Unique

namespace Cpu

variable {β : Type} [Bus β]

/-- Up to the operand, a step has made the accesses that find it. -/
theorem Located.found {c : Cpu β} {op : Opcode} {operand : Operand} {bus : β} {log : List Access}
    (h : c.Located op operand bus log) :
    ∃ found, Found c.registers op.mode found operand ∧
      log = .read c.registers.pc c.opcode :: found := by
  have hfound := found_resolve c.registers op.mode c.busFetched
  rw [h.run_eq] at hfound
  exact ⟨_, hfound, h.log_eq⟩

/-- The accesses of a step with an instruction, in its parts. -/
theorem exists_found_and_worked {c : Cpu β} {op : Opcode} (h : c.stop = none)
    (hop : decode c.opcode = some op) :
    ∃ found worked operand, Found c.registers op.mode found operand ∧
      Worked (c.registers.advance op.length) op.mnemonic.traffic operand worked ∧
      c.accesses 1 = .read c.registers.pc c.opcode :: (found ++ worked) := by
  obtain ⟨operand, bus, log, hloc⟩ := exists_located hop
  obtain ⟨found, hfound, hlog⟩ := hloc.found
  refine ⟨found, _, operand, hfound, worked_execute hloc.takes bus, ?_⟩
  rw [accesses_one h, accesses_instruction hloc, hlog, List.cons_append]

theorem trace_accesses {c : Cpu β} (h : c.stop = none) : Trace c.registers (c.accesses 1) := by
  cases hop : decode c.opcode with
  | none =>
    rw [accesses_one h, (instruction_of_undecoded hop).2]
    exact .undecoded hop
  | some op =>
    obtain ⟨found, worked, operand, hfound, hworked, haccesses⟩ := exists_found_and_worked h hop
    rw [haccesses]
    exact .decoded hop hfound hworked

/-- The accesses of a step are the one trace of its registers that the bus answers. -/
theorem accesses_of_one_step_are_its_trace (c : Cpu β) (h : c.stop = none) (log : List Access) :
    c.accesses 1 = log ↔ Trace c.registers log ∧ Bus.Answers c.bus log := by
  have htrace := trace_accesses h
  have hanswers : Bus.Answers c.bus (c.accesses 1) := by
    rw [accesses_one h]
    exact Bus.answers_accesses _ _
  constructor
  · rintro rfl
    exact ⟨htrace, hanswers⟩
  · rintro ⟨hlog, hanswered⟩
    exact htrace.unique hlog hanswers hanswered

/-- `INC $10,X` with the index past the end of page zero. -/
theorem accesses_of_one_step_are_its_trace_past_page_zero :
    let c : Cpu Store :=
      { registers := { x := 0xF8, pc := 0xFFFF }, bus := (Store.blank.set 0xFFFF 0xF6).set 0 0x10 }
    c.stop = none ∧ c.accesses 1 =
      [.read 0xFFFF 0xF6, .read 0 0x10, .read 0x0008 0, .write 0x0008 1] := by
  intro c
  refine ⟨rfl, (accesses_of_one_step_are_its_trace c rfl _).2 ⟨?_, ?_⟩⟩
  · have hop : decode 0xF6 = some ⟨.inc, .zeroPageX, 6, by decide⟩ := by decide +kernel
    have haddress : ((0x10 : UInt8) + c.registers.x).toUInt16 = 0x0008 := by decide +kernel
    have hpc : c.registers.pc + 1 = 0 := by decide +kernel
    have hfound := Found.zeroPageX (r := c.registers) 0x10
    rw [haddress, hpc] at hfound
    exact .decoded hop hfound (.rewrite (fun _ value => value + 1) 0x0008 0)
  · decide +kernel

end Cpu

end Challenger1P
