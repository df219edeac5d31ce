import Challenger1P.Memory.Store
import Challenger1P.Proofs.Mos6502.Alu
import Challenger1P.Proofs.Mos6502.Faults
import Challenger1P.Proofs.Mos6502.Stack

/-!
# What every instruction computes

`reference` says for each of the 56 mnemonics what it leaves of the registers and of plain memory,
with the arithmetic done on whole numbers. What an entry does not mention stays as it was. An
instruction on the operand that its mode resolves leaves exactly that, unless the stack refuses it
(`run_execute`).
-/

namespace Challenger1P

/-! ## The reference -/

/-- What an instruction leaves, and what it costs beyond its opcode. -/
structure Effect where
  registers : Registers
  store : Store
  extra : Nat := 0

/-- What a whole number leaves modulo 65536. -/
def wide (n : Int) : UInt16 := UInt16.ofNat (n % 65536).toNat

/-- The flags as one byte, from carry in bit 0 up. -/
def statusByte (f : Flags) : UInt8 :=
  byte (f.carry.toNat + 2 * f.zero.toNat + 4 * f.interruptDisable.toNat + 8 * f.decimal.toNat +
    16 * f.software.toNat + 32 * f.always.toNat + 64 * f.overflow.toNat + 128 * f.negative.toNat)

def flagsOf (status : UInt8) : Flags where
  carry := bitOf status 0
  zero := bitOf status 1
  interruptDisable := bitOf status 2
  decimal := bitOf status 3
  software := bitOf status 4
  always := bitOf status 5
  overflow := bitOf status 6
  negative := bitOf status 7

/-- The byte that an operand denotes. -/
def Operand.denoted (r : Registers) (s : Store) : Operand → UInt8
  | .none => 0
  | .accumulator => r.a
  | .address place => s.get place

/-- Where a jump or branch with this operand leads. -/
def Operand.target : Operand → UInt16
  | .address place => place
  | _ => 0

/-- Memory with bytes pushed from stack pointer `sp` downwards. -/
def Store.stacked (s : Store) (sp : Nat) : List UInt8 → Store
  | [] => s
  | value :: rest => (s.set (wide (0x0100 + sp)) value).stacked (sp - 1) rest

/-- The byte `i` places above the stack pointer. -/
def Registers.above (r : Registers) (s : Store) (i : Nat) : UInt8 :=
  s.get (wide (0x0100 + r.sp.toNat + i))

namespace Effect

/-- How an instruction with this effect ends. -/
def outcome (effect : Effect) : Outcome × Store :=
  (.ok (effect.registers, effect.extra), effect.store)

variable (r : Registers) (s : Store)

/-- A result in a register, judged by zero and negative. -/
def result (target : Register) (value : UInt8) (f : Flags) : Effect :=
  { registers := { r.set target value with flags := f.judgedBy value }, store := s }

/-- A result where the operand was. -/
def inPlace (operand : Operand) (value : UInt8) (f : Flags) : Effect :=
  match operand with
  | .none => { registers := { r with flags := f.judgedBy value }, store := s }
  | .accumulator => result r s .a value f
  | .address address =>
    { registers := { r with flags := f.judgedBy value }, store := s.set address value }

def flagged (f : Flags) : Effect := { registers := { r with flags := f }, store := s }

/-- The flags of a comparison of `left` with `m`. -/
def compared (left m : UInt8) : Effect :=
  flagged r s { r.flags with
    carry := m.toNat ≤ left.toNat
    zero := left.toNat = m.toNat
    negative := bitOf (byte (left.toNat - m.toNat)) 7 }

def branch (operand : Operand) (taken : Bool) : Effect :=
  if taken then { registers := { r with pc := operand.target }, store := s, extra := 1 }
  else { registers := r, store := s }

end Effect

/-- What a mnemonic leaves of registers and memory, from a program counter past the instruction. -/
def reference (r : Registers) (s : Store) (operand : Operand) (mnemonic : Mnemonic) : Effect :=
  let f := r.flags
  let c : Int := f.carry.toNat
  let m := operand.denoted r s
  match mnemonic with
  | .lda => .result r s .a m f
  | .ldx => .result r s .x m f
  | .ldy => .result r s .y m f
  | .sta => { registers := r, store := s.set operand.target r.a }
  | .stx => { registers := r, store := s.set operand.target r.x }
  | .sty => { registers := r, store := s.set operand.target r.y }
  | .tax => .result r s .x r.a f
  | .tay => .result r s .y r.a f
  | .txa => .result r s .a r.x f
  | .tya => .result r s .a r.y f
  | .tsx => .result r s .x r.sp f
  | .txs => { registers := { r with sp := r.x }, store := s }
  | .adc =>
    let sum : Int := r.a.toNat + m.toNat + c
    let overflow := overflows (signed r.a + signed m + c)
    .result r s .a (byte sum) { f with carry := 256 ≤ sum, overflow }
  | .sbc =>
    let difference : Int := r.a.toNat - m.toNat - (1 - c)
    let overflow := overflows (signed r.a - signed m - (1 - c))
    .result r s .a (byte difference) { f with carry := 0 ≤ difference, overflow }
  | .and => .result r s .a (byte (r.a.toNat &&& m.toNat : Nat)) f
  | .ora => .result r s .a (byte (r.a.toNat ||| m.toNat : Nat)) f
  | .eor => .result r s .a (byte (r.a.toNat ^^^ m.toNat : Nat)) f
  | .bit =>
    .flagged r s { f with
      zero := r.a.toNat &&& m.toNat = 0, negative := bitOf m 7, overflow := bitOf m 6 }
  | .cmp => .compared r s r.a m
  | .cpx => .compared r s r.x m
  | .cpy => .compared r s r.y m
  | .inc => .inPlace r s operand (byte (m.toNat + 1)) f
  | .dec => .inPlace r s operand (byte (m.toNat - 1)) f
  | .inx => .result r s .x (byte (r.x.toNat + 1)) f
  | .iny => .result r s .y (byte (r.y.toNat + 1)) f
  | .dex => .result r s .x (byte (r.x.toNat - 1)) f
  | .dey => .result r s .y (byte (r.y.toNat - 1)) f
  | .asl => .inPlace r s operand (byte (2 * m.toNat)) { f with carry := bitOf m 7 }
  | .lsr => .inPlace r s operand (byte (m.toNat / 2)) { f with carry := bitOf m 0 }
  | .rol => .inPlace r s operand (byte (2 * m.toNat + c)) { f with carry := bitOf m 7 }
  | .ror => .inPlace r s operand (byte (m.toNat / 2 + 128 * c)) { f with carry := bitOf m 0 }
  | .bcc => .branch r s operand (!f.carry)
  | .bcs => .branch r s operand f.carry
  | .bne => .branch r s operand (!f.zero)
  | .beq => .branch r s operand f.zero
  | .bpl => .branch r s operand (!f.negative)
  | .bmi => .branch r s operand f.negative
  | .bvc => .branch r s operand (!f.overflow)
  | .bvs => .branch r s operand f.overflow
  | .jmp => { registers := { r with pc := operand.target }, store := s }
  | .jsr =>
    -- the address of the last byte of the instruction
    let last : Int := (r.pc.toNat - 1) % 65536
    { registers := { r with sp := byte (r.sp.toNat - 2), pc := operand.target }
      store := s.stacked r.sp.toNat [byte (last / 256), byte last] }
  | .rts =>
    { registers := { r with
        sp := byte (r.sp.toNat + 2)
        pc := wide ((r.above s 1).toNat + 256 * (r.above s 2).toNat + 1) }
      store := s }
  | .brk =>
    -- the byte after the opcode is skipped
    let next : Int := (r.pc.toNat + 1) % 65536
    let status := statusByte { f with software := true }
    let store := s.stacked r.sp.toNat [byte (next / 256), byte next, status]
    { registers := { r with
        sp := byte (r.sp.toNat - 3)
        pc := wide ((store.get 0xFFFE).toNat + 256 * (store.get 0xFFFF).toNat)
        flags := { f with interruptDisable := true } }
      store }
  | .rti =>
    { registers := { r with
        sp := byte (r.sp.toNat + 3)
        pc := wide ((r.above s 2).toNat + 256 * (r.above s 3).toNat)
        flags := { flagsOf (r.above s 1) with software := false, always := true } }
      store := s }
  | .pha =>
    { registers := { r with sp := byte (r.sp.toNat - 1) }, store := s.stacked r.sp.toNat [r.a] }
  | .php =>
    { registers := { r with sp := byte (r.sp.toNat - 1) }
      store := s.stacked r.sp.toNat [statusByte f] }
  | .pla => .result { r with sp := byte (r.sp.toNat + 1) } s .a (r.above s 1) f
  | .plp =>
    { registers := { r with
        sp := byte (r.sp.toNat + 1)
        flags := { flagsOf (r.above s 1) with always := true } }
      store := s }
  | .clc => .flagged r s { f with carry := false }
  | .cld => .flagged r s { f with decimal := false }
  | .cli => .flagged r s { f with interruptDisable := false }
  | .clv => .flagged r s { f with overflow := false }
  | .sec => .flagged r s { f with carry := true }
  | .sed => .flagged r s { f with decimal := true }
  | .sei => .flagged r s { f with interruptDisable := true }
  | .nop => { registers := r, store := s }

/-! ## Words, status and stack -/

theorem word_eq (low high : UInt8) : word low high = wide (low.toNat + 256 * high.toNat) := by
  have := low.toNat_lt
  have := high.toNat_lt
  rw [← UInt16.toNat_inj, word, wide, UInt16.toNat_ofNat', UInt16.toNat_add, UInt16.toNat_mul,
    UInt8.toNat_toUInt16, UInt8.toNat_toUInt16, show (256 : UInt16).toNat = 256 from rfl]
  omega

theorem wide_succ (n : Int) : wide n + 1 = wide (n + 1) := by
  rw [← UInt16.toNat_inj, wide, wide, UInt16.toNat_add, UInt16.toNat_ofNat', UInt16.toNat_ofNat',
    UInt16.toNat_one]
  omega

theorem lowByte_eq {w : UInt16} {n : Int} (h : (w.toNat : Int) = n) : lowByte w = byte n := by
  refine eq_byte ?_
  rw [lowByte, UInt16.toNat_toUInt8]
  omega

theorem highByte_eq {w : UInt16} {n : Int} (h : (w.toNat : Int) = n) :
    highByte w = byte (n / 256) := by
  refine eq_byte ?_
  rw [highByte, UInt16.toNat_toUInt8, UInt16.toNat_div, show (256 : UInt16).toNat = 256 from rfl]
  omega

theorem toByte_eq (f : Flags) : f.toByte = statusByte f := by
  obtain ⟨c, z, i, d, b, u, v, n⟩ := f
  revert c z i d b u v n
  decide +kernel

theorem ofByte_eq (status : UInt8) : Flags.ofByte status = flagsOf status := by
  have key : ∀ n : Fin 256, Flags.ofByte (UInt8.ofNat n.val) = flagsOf (UInt8.ofNat n.val) := by
    decide +kernel
  simpa using key ⟨status.toNat, status.toNat_lt⟩

@[simp] theorem Store.read_eq (s : Store) (address : UInt16) :
    Bus.read s address = (s.get address, s) := rfl

/-- What only reads leaves plain memory as it was. -/
theorem Transaction.WriteFree.run_store {α : Type} {t : Transaction α} (h : t.WriteFree)
    (s : Store) : (t.run s).2 = s :=
  h.run_induction (P := (· = s)) (fun _ _ hbus => hbus) rfl

theorem stackAddress_eq_wide (sp : UInt8) : stackAddress sp = wide (0x0100 + sp.toNat) := by
  have := sp.toNat_lt
  rw [stackAddress_eq, wide]
  congr 1
  omega

theorem run_writeDown {sp : UInt8} {values : List UInt8} (h : values.length ≤ sp.toNat)
    (s : Store) :
    (writeDown sp values).run s = (byte (sp.toNat - values.length), s.stacked sp.toNat values) := by
  induction values generalizing sp s with
  | nil => simp [writeDown, Store.stacked, byte_toNat]
  | cons value values ih =>
    rw [List.length_cons] at h
    have hsp : (sp - 1).toNat = sp.toNat - 1 := toNat_pushed_sp (by omega)
    show (writeDown (sp - 1) values).run (s.set (stackAddress sp) value) = _
    rw [ih (by omega), Store.stacked, stackAddress_eq_wide, hsp, List.length_cons]
    congr 2
    omega

theorem run_readUp {sp : UInt8} {count : Nat} (h : sp.toNat + count ≤ 255) (s : Store) :
    (readUp sp count).run s =
      ((Vector.ofFn fun i => s.get (wide (0x0100 + sp.toNat + (i.val + 1 : Nat))),
        byte (sp.toNat + count)), s) := by
  induction count with
  | zero => simp [readUp, byte_toNat]
  | succ count ih =>
    have hsp : (byte (sp.toNat + count)).toNat = sp.toNat + count := by
      have := toNat_byte (sp.toNat + count)
      omega
    have hnext : byte (sp.toNat + count) + 1 = byte (sp.toNat + (count + 1 : Nat)) := by
      refine eq_byte ?_
      rw [UInt8.toNat_add, hsp, UInt8.toNat_one]
      omega
    have haddress : stackAddress (byte (sp.toNat + (count + 1 : Nat))) =
        wide (0x0100 + sp.toNat + (count + 1 : Nat)) := by
      rw [stackAddress_eq_wide, toNat_byte]
      congr 1
      omega
    rw [readUp, Transaction.bind_eq, Transaction.run_bind, ih (by omega), Vector.ofFn_succ]
    simp only [Transaction.bind_eq, Transaction.run_bind, Transaction.run_readByte,
      Transaction.pure_eq, Transaction.run_done, Store.read_eq, hnext, haddress]
    rfl

namespace Registers

variable {r : Registers} {operand : Operand} {mnemonic : Mnemonic}

theorem run_afterPush {values : List UInt8} (h : values.length ≤ r.sp.toNat)
    (next : Registers → Transaction Outcome) (s : Store) :
    (r.afterPush values next).run s =
      (next { r with sp := byte (r.sp.toNat - values.length) }).run
        (s.stacked r.sp.toNat values) := by
  rw [afterPush_of_le h, Transaction.run_bind, run_writeDown h]

theorem run_afterPull {count : Nat} (h : r.sp.toNat + count ≤ 255)
    (next : Vector UInt8 count → Registers → Transaction Outcome) (s : Store) :
    (r.afterPull count next).run s =
      (next (Vector.ofFn fun i => r.above s (i.val + 1))
        { r with sp := byte (r.sp.toNat + count) }).run s := by
  rw [afterPull_of_le h, Transaction.run_bind, run_readUp h]
  rfl

theorem load_eq (r : Registers) (target : Register) (value : UInt8) :
    r.load target value = { r.set target value with flags := r.flags.judgedBy value } := by
  rw [load, forResult_eq]

/-! ## Kinds of action -/

variable {s : Store}

theorem run_load (hkind : operand.kind = .memory) {target : Register} :
    (r.perform operand (.load target)).run s =
      (Effect.result r s target (operand.denoted r s) r.flags).outcome := by
  obtain ⟨place, rfl⟩ := Operand.eq_address_of_kind hkind
  rw [perform_load]
  simp only [Transaction.run, Store.read_eq, load_eq]
  rfl

theorem run_store (hkind : operand.kind = .memory) {source : Register} :
    (r.perform operand (.store source)).run s =
      (.ok (r, 0), s.set operand.target (r.get source)) := by
  obtain ⟨place, rfl⟩ := Operand.eq_address_of_kind hkind
  rw [perform_store]
  rfl

theorem run_move {value : Registers → UInt8} {target : Register} {v : UInt8} (h : value r = v) :
    (r.perform operand (.move value target)).run s =
      (Effect.result r s target v r.flags).outcome := by
  rw [perform_move, load_eq, h]
  rfl

theorem run_combine (hkind : operand.kind = .memory) {f : Flags → UInt8 → UInt8 → UInt8 × Flags}
    {value : UInt8} {flags : Flags}
    (h : f r.flags r.a (operand.denoted r s) = (value, flags.judgedBy value)) :
    (r.perform operand (.combine f)).run s = (Effect.result r s .a value flags).outcome := by
  obtain ⟨place, rfl⟩ := Operand.eq_address_of_kind hkind
  rw [perform_combine]
  simp only [Transaction.run, Store.read_eq, show f r.flags r.a (s.get place) = _ from h]
  rfl

theorem run_bitwise (hkind : operand.kind = .memory) {op : UInt8 → UInt8 → UInt8} {value : UInt8}
    (h : op r.a (operand.denoted r s) = value) :
    (r.perform operand (bitwise op)).run s = (Effect.result r s .a value r.flags).outcome :=
  run_combine hkind (by rw [Alu.passing_eq, h])

theorem run_test (hkind : operand.kind = .memory) {left : Register}
    {f : Flags → UInt8 → UInt8 → Flags} {flags : Flags}
    (h : f r.flags (r.get left) (operand.denoted r s) = flags) :
    (r.perform operand (.test left f)).run s = (Effect.flagged r s flags).outcome := by
  obtain ⟨place, rfl⟩ := Operand.eq_address_of_kind hkind
  rw [perform_test]
  simp only [Transaction.run, Store.read_eq, show f r.flags (r.get left) (s.get place) = _ from h]
  rfl

theorem run_modify {f : Flags → UInt8 → UInt8 × Flags} {value : UInt8} {flags : Flags}
    (h : f r.flags (operand.denoted r s) = (value, flags.judgedBy value)) :
    (r.perform operand (.modify f)).run s = (Effect.inPlace r s operand value flags).outcome := by
  cases operand with
  | none =>
    show (Except.ok ({ r with flags := (f r.flags 0).2 }, 0), s) = _
    rw [show f r.flags 0 = _ from h]
    rfl
  | accumulator =>
    rw [perform_modify_accumulator, show f r.flags r.a = _ from h]
    rfl
  | address place =>
    rw [perform_modify]
    simp only [Transaction.run, Store.read_eq, show f r.flags (s.get place) = _ from h]
    rfl

theorem run_branch (hkind : operand.kind = .memory) {taken : Flags → Bool} :
    (r.perform operand (.branch taken)).run s =
      (Effect.branch r s operand (taken r.flags)).outcome := by
  obtain ⟨place, rfl⟩ := Operand.eq_address_of_kind hkind
  rw [perform_branch, Effect.branch]
  split <;> rfl

theorem run_mark {f : Flags → Flags} :
    (r.perform operand (.mark f)).run s = (Effect.flagged r s (f r.flags)).outcome := by
  rw [perform_mark]
  rfl

/-! ## Instruction by instruction -/

/-- An instruction that the stack does not refuse leaves what the reference says. -/
theorem run_execute (h : r.stackFault mnemonic = none)
    (htakes : mnemonic.takes operand.kind = true) :
    (r.execute mnemonic operand).run s = (reference r s operand mnemonic).outcome := by
  obtain ⟨hpush, hpull⟩ := stackFault_eq_none.1 h
  cases mnemonic
  case lda | ldx | ldy => exact run_load (eq_of_beq htakes)
  case sta | stx | sty => exact run_store (eq_of_beq htakes)
  case tax | tay | txa | tya | tsx => exact run_move rfl
  case inx | iny => exact run_move (Alu.succ_eq _)
  case dex | dey => exact run_move (Alu.pred_eq _)
  case txs =>
    show (r.perform operand .setStack).run s = _
    rw [perform_setStack]
    rfl
  case adc => exact run_combine (eq_of_beq htakes) (Alu.add_eq _ _ _)
  case sbc => exact run_combine (eq_of_beq htakes) (Alu.subtract_eq _ _ _)
  case and => exact run_bitwise (eq_of_beq htakes) (Alu.and_eq _ _)
  case ora => exact run_bitwise (eq_of_beq htakes) (Alu.or_eq _ _)
  case eor => exact run_bitwise (eq_of_beq htakes) (Alu.xor_eq _ _)
  case bit => exact run_test (eq_of_beq htakes) (Alu.bitTest_eq _ _ _)
  case cmp | cpx | cpy => exact run_test (eq_of_beq htakes) (Alu.compare_eq _ _ _)
  case inc => exact run_modify (Alu.increment_eq _ _)
  case dec => exact run_modify (Alu.decrement_eq _ _)
  case asl => exact run_modify (Alu.shiftLeft_eq _ _)
  case lsr => exact run_modify (Alu.shiftRight_eq _ _)
  case rol => exact run_modify (Alu.rotateLeft_eq _ _)
  case ror => exact run_modify (Alu.rotateRight_eq _ _)
  case bcc | bcs | bne | beq | bpl | bmi | bvc | bvs => exact run_branch (eq_of_beq htakes)
  case clc | cld | cli | clv | sec | sed | sei | nop => exact run_mark
  case jmp =>
    obtain ⟨place, rfl⟩ := Operand.eq_address_of_kind (eq_of_beq htakes)
    show (r.perform (.address place) .jump).run s = _
    rw [perform_jump]
    rfl
  case jsr =>
    obtain ⟨place, rfl⟩ := Operand.eq_address_of_kind (eq_of_beq htakes)
    have hlast : ((r.pc - 1).toNat : Int) = (r.pc.toNat - 1) % 65536 := by
      rw [UInt16.toNat_sub, UInt16.toNat_one]
      omega
    show (r.perform (.address place) .callSubroutine).run s = _
    rw [perform_callSubroutine, run_afterPush, highByte_eq hlast, lowByte_eq hlast]
    · rfl
    · exact hpush
  case brk =>
    have hnext : ((r.pc + 1).toNat : Int) = (r.pc.toNat + 1) % 65536 := by
      rw [UInt16.toNat_add, UInt16.toNat_one]
      omega
    show (r.perform operand .interrupt).run s = _
    rw [perform_interrupt, run_afterPush, highByte_eq hnext, lowByte_eq hnext, toByte_eq]
    · simp only [readWord, Transaction.bind_eq, Transaction.run_bind, Transaction.run_readByte,
        Transaction.pure_eq, Transaction.run_done, Store.read_eq, word_eq]
      rfl
    · exact hpush
  case pha =>
    show (r.perform operand .pushAccumulator).run s = _
    rw [perform_pushAccumulator, run_afterPush]
    · rfl
    · exact hpush
  case php =>
    show (r.perform operand .pushFlags).run s = _
    rw [perform_pushFlags, run_afterPush, toByte_eq]
    · rfl
    · exact hpush
  case pla =>
    show (r.perform operand .pullAccumulator).run s = _
    rw [perform, run_afterPull]
    · simp only [load_eq, Vector.getElem_ofFn]
      rfl
    · exact hpull
  case plp =>
    show (r.perform operand .pullFlags).run s = _
    rw [perform, run_afterPull]
    · simp only [ofByte_eq, Vector.getElem_ofFn]
      rfl
    · exact hpull
  case rts =>
    show (r.perform operand .returnFromSubroutine).run s = _
    rw [perform, run_afterPull]
    · simp only [word_eq, Vector.getElem_ofFn, wide_succ]
      rfl
    · exact hpull
  case rti =>
    show (r.perform operand .returnFromInterrupt).run s = _
    rw [perform, run_afterPull]
    · simp only [ofByte_eq, word_eq, Vector.getElem_ofFn]
      rfl
    · exact hpull

/-- For every documented opcode, the instruction on the operand that its mode resolves computes what
the reference says and changes nothing else, or it is refused by the stack and changes nothing. -/
theorem every_instruction_computes_its_reference {opcode : UInt8} {op : Opcode}
    (hop : decode opcode = some op) (r : Registers) (s : Store) :
    let found := (r.resolve op.mode).run s
    let operand := found.1.1
    let past := found.1.2
    found.2 = s ∧ past = r.advance op.mode.operandLength ∧
      (past.execute op.mnemonic operand).run s =
        match past.stackFault op.mnemonic with
        | none => (reference past s operand op.mnemonic).outcome
        | some fault => (.error (.fault fault), s) := by
  intro found operand past
  obtain ⟨hkind, hpast⟩ := (r.resolve_ensures op.mode).run s
  have htakes : op.mnemonic.takes operand.kind = true := by
    rw [hkind]
    exact takes_of_decode hop
  refine ⟨(r.resolve_writeFree op.mode).run_store s, hpast, ?_⟩
  cases hfault : past.stackFault op.mnemonic with
  | none => exact run_execute hfault htakes
  | some fault =>
    rw [execute_of_stackFault hfault htakes]
    rfl

/-- `ADC #$01` on `$7F`: the sum is negative as a byte with a sign. -/
theorem every_instruction_computes_its_reference_on_overflow :
    let r : Registers := { a := 0x7F, pc := 0x0201 }
    let past : Registers := { a := 0x7F, pc := 0x0202 }
    let s := Store.blank.set 0x0201 0x01
    (r.resolve .immediate).run s = ((.address 0x0201, past), s) ∧
      (past.execute .adc (.address 0x0201)).run s =
        (.ok ({ past with a := 0x80, flags := { overflow := true, negative := true } }, 0), s) := by
  intro r past s
  have hop : decode 0x69 = some ⟨.adc, .immediate, 2, by decide⟩ := by decide +kernel
  obtain ⟨-, -, hrun⟩ := every_instruction_computes_its_reference hop r s
  have heffect : (reference past s (.address 0x0201) .adc).registers =
      { past with a := 0x80, flags := { overflow := true, negative := true } } := by decide +kernel
  refine ⟨rfl, hrun.trans ?_⟩
  show (Except.ok ((reference past s (.address 0x0201) .adc).registers, 0), s) = _
  rw [heffect]

end Registers

end Challenger1P
