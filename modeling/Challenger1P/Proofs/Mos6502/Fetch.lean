import Challenger1P.Proofs.Bus.Recording

/-!
# From the program counter to the operand

The front half of every instruction: fetch the opcode, look it up, consume the operand bytes and
find the operand. It moves the program counter and nothing else (`resolve_ensures`), writes nothing
(`resolve_writeFree`), and gives an operand of the kind that the instruction takes
(`takes_of_decode`).
-/

namespace Challenger1P

/-- The kinds of operand. -/
inductive OperandKind where
  | none
  | accumulator
  | memory
  deriving DecidableEq, Repr

/-- Of which kind an operand is. -/
def Operand.kind : Operand → OperandKind
  | .none => .none
  | .accumulator => .accumulator
  | .address _ => .memory

/-- The kind of operand that a mode gives. -/
def Mode.kind : Mode → OperandKind
  | .implied => .none
  | .accumulator => .accumulator
  | _ => .memory

/-- Whether an instruction works on operands of a kind. -/
def Mnemonic.takes : Mnemonic → OperandKind → Bool
  | .asl | .lsr | .rol | .ror => fun kind => kind != .none
  | .tax | .tay | .txa | .tya | .tsx | .txs | .inx | .iny | .dex | .dey => (· == .none)
  | .rts | .brk | .rti | .pha | .php | .pla | .plp => (· == .none)
  | .clc | .cld | .cli | .clv | .sec | .sed | .sei | .nop => (· == .none)
  | _ => (· == .memory)

theorem Operand.eq_address_of_kind {operand : Operand} (h : operand.kind = .memory) :
    ∃ address, operand = .address address := by
  cases operand with
  | none => cases h
  | accumulator => cases h
  | address address => exact ⟨address, rfl⟩

/-- What holds in every slot of the matrix holds of every opcode that decodes. -/
theorem of_decode {P : Opcode → Prop}
    (key : ∀ n : Fin 256, ∀ op ∈ decode (UInt8.ofNat n.val), P op) {opcode : UInt8} {op : Opcode}
    (h : decode opcode = some op) : P op :=
  key ⟨opcode.toNat, opcode.toNat_lt⟩ op (by simpa using h)

/-- In the whole matrix, instructions stand only with modes that give them what they take. -/
theorem takes_of_decode {opcode : UInt8} {op : Opcode} (h : decode opcode = some op) :
    op.mnemonic.takes op.mode.kind = true :=
  of_decode (P := fun op => op.mnemonic.takes op.mode.kind = true) (by decide +kernel) h

namespace Registers

/-- Move the program counter on by some bytes. -/
def advance (r : Registers) (count : Nat) : Registers := { r with pc := r.pc + UInt16.ofNat count }

@[simp] theorem advance_x (r : Registers) (count : Nat) : (r.advance count).x = r.x := rfl
@[simp] theorem advance_y (r : Registers) (count : Nat) : (r.advance count).y = r.y := rfl
@[simp] theorem advance_pc (r : Registers) (count : Nat) :
    (r.advance count).pc = r.pc + UInt16.ofNat count := rfl

theorem advance_zero (r : Registers) : r.advance 0 = r := by simp [advance]

theorem advance_advance (r : Registers) (m n : Nat) :
    (r.advance m).advance n = r.advance (m + n) := by
  simp [advance, UInt16.ofNat_add, UInt16.add_assoc]

/-! ## Resolving -/

theorem fetchByte_eq (r : Registers) :
    r.fetchByte = .read r.pc fun value => .done (value, r.advance 1) := rfl

theorem fetchWord_eq (r : Registers) :
    r.fetchWord = .read r.pc fun low => .read (r.pc + 1) fun high =>
      .done (word low high, r.advance 2) := by
  show Transaction.read r.pc (fun low => .read (r.pc + 1) fun high =>
    .done (word low high, (r.advance 1).advance 1)) = _
  rw [advance_advance]

/-- Resolving consumes the operand bytes and gives an operand of the mode's kind. -/
theorem resolve_ensures (r : Registers) (mode : Mode) :
    (r.resolve mode).Ensures fun result =>
      result.1.kind = mode.kind ∧ result.2 = r.advance mode.operandLength := by
  cases mode <;>
    simp [resolve, fetchByte_eq, fetchWord_eq, readWord, readZeroPageWord, Transaction.bind,
      Transaction.readByte, Transaction.Ensures, Operand.kind, Mode.kind, Mode.operandLength,
      advance_zero]
  case immediate => rfl

theorem resolve_writeFree (r : Registers) (mode : Mode) : (r.resolve mode).WriteFree := by
  cases mode <;>
    simp [resolve, fetchByte_eq, fetchWord_eq, readWord, readZeroPageWord, Transaction.bind,
      Transaction.readByte, Transaction.WriteFree]

end Registers

end Challenger1P
