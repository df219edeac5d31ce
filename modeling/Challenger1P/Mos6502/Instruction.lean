import Challenger1P.Mos6502.Alu
import Challenger1P.Mos6502.Opcode
import Challenger1P.Mos6502.Stack

/-!
# Instructions

What the instructions do once their operand is resolved. The 56 mnemonics come down to two dozen
kinds of `Action`, each given by the function it computes or the register it uses; `perform`
carries one out as a transaction. An action ends with the registers it leaves and the cycles it
costs beyond the opcode's own, which only a taken branch has, or is refused and changes nothing.
-/

namespace Challenger1P

/-- What an instruction does. -/
inductive Action where
  /-- Put the operand into a register. -/
  | load (target : Register)
  /-- Put a register into memory. -/
  | store (source : Register)
  /-- Put a value computed from the registers into one of them. -/
  | move (value : Registers → UInt8) (target : Register)
  /-- Point the stack where X says; no flag changes. -/
  | setStack
  /-- Combine the accumulator with the operand. -/
  | combine (f : Flags → UInt8 → UInt8 → UInt8 × Flags)
  /-- Set flags by a register and the operand. -/
  | test (left : Register) (f : Flags → UInt8 → UInt8 → Flags)
  /-- Change the operand where it stands. -/
  | modify (f : Flags → UInt8 → UInt8 × Flags)
  /-- Go on at the operand if the flags say so. -/
  | branch (taken : Flags → Bool)
  | jump
  | callSubroutine
  | returnFromSubroutine
  /-- Interrupt the program by software. -/
  | interrupt
  | returnFromInterrupt
  | pushAccumulator
  | pushFlags
  | pullAccumulator
  | pullFlags
  /-- Change flags. -/
  | mark (f : Flags → Flags)

/-- The accumulator combined with the operand bit by bit. -/
def bitwise (op : UInt8 → UInt8 → UInt8) : Action :=
  .combine fun f a m => Alu.passing f (op a m)

def Mnemonic.action : Mnemonic → Action
  | .lda => .load .a
  | .ldx => .load .x
  | .ldy => .load .y
  | .sta => .store .a
  | .stx => .store .x
  | .sty => .store .y
  | .tax => .move (·.a) .x
  | .tay => .move (·.a) .y
  | .txa => .move (·.x) .a
  | .tya => .move (·.y) .a
  | .tsx => .move (·.sp) .x
  | .txs => .setStack
  | .adc => .combine Alu.add
  | .sbc => .combine Alu.subtract
  | .and => bitwise (· &&& ·)
  | .ora => bitwise (· ||| ·)
  | .eor => bitwise (· ^^^ ·)
  | .bit => .test .a Alu.bitTest
  | .cmp => .test .a Alu.compare
  | .cpx => .test .x Alu.compare
  | .cpy => .test .y Alu.compare
  | .inc => .modify Alu.increment
  | .dec => .modify Alu.decrement
  | .inx => .move (·.x + 1) .x
  | .iny => .move (·.y + 1) .y
  | .dex => .move (·.x - 1) .x
  | .dey => .move (·.y - 1) .y
  | .asl => .modify Alu.shiftLeft
  | .lsr => .modify Alu.shiftRight
  | .rol => .modify Alu.rotateLeft
  | .ror => .modify Alu.rotateRight
  | .bcc => .branch (!·.carry)
  | .bcs => .branch (·.carry)
  | .bne => .branch (!·.zero)
  | .beq => .branch (·.zero)
  | .bpl => .branch (!·.negative)
  | .bmi => .branch (·.negative)
  | .bvc => .branch (!·.overflow)
  | .bvs => .branch (·.overflow)
  | .jmp => .jump
  | .jsr => .callSubroutine
  | .rts => .returnFromSubroutine
  | .brk => .interrupt
  | .rti => .returnFromInterrupt
  | .pha => .pushAccumulator
  | .php => .pushFlags
  | .pla => .pullAccumulator
  | .plp => .pullFlags
  | .clc => .mark fun f => { f with carry := false }
  | .cld => .mark fun f => { f with decimal := false }
  | .cli => .mark fun f => { f with interruptDisable := false }
  | .clv => .mark fun f => { f with overflow := false }
  | .sec => .mark fun f => { f with carry := true }
  | .sed => .mark fun f => { f with decimal := true }
  | .sei => .mark fun f => { f with interruptDisable := true }
  | .nop => .mark id

/-- Where a software interrupt finds the address of its handler. -/
def interruptVector : UInt16 := 0xFFFE

/-- How an action ends: with the registers and the extra cycles, or with the reason why not. -/
abbrev Outcome := Except Stop (Registers × Nat)

namespace Registers

/-- An action that is complete and costs nothing extra. -/
def settled (r : Registers) : Transaction Outcome := return .ok (r, 0)

/-- The byte that an operand denotes; an operand that denotes nothing counts as zero. -/
def readOperand (r : Registers) : Operand → Transaction UInt8
  | .none => return 0
  | .accumulator => return r.a
  | .address address => Transaction.readByte address

/-- Go on with the address of an operand, or refuse. -/
def withAddress (operand : Operand) (next : UInt16 → Transaction Outcome) : Transaction Outcome :=
  match operand with
  | .address address => next address
  | _ => return .error .noAddress

/-- Push bytes and go on, or refuse. -/
def afterPush (r : Registers) (values : List UInt8) (next : Registers → Transaction Outcome) :
    Transaction Outcome := do
  match ← r.push values with
  | .ok r => next r
  | .error fault => return .error (.fault fault)

/-- Pull bytes and go on, or refuse. -/
def afterPull (r : Registers) (count : Nat)
    (next : Vector UInt8 count → Registers → Transaction Outcome) : Transaction Outcome := do
  match ← r.pull count with
  | .ok (values, r) => next values r
  | .error fault => return .error (.fault fault)

def perform (r : Registers) (operand : Operand) : Action → Transaction Outcome
  | .load target => do
    let value ← r.readOperand operand
    settled (r.load target value)
  | .store source => withAddress operand fun address => do
    Transaction.writeByte address (r.get source)
    settled r
  | .move value target => settled (r.load target (value r))
  | .setStack => settled { r with sp := r.x }
  | .combine f => do
    let value ← r.readOperand operand
    match f r.flags r.a value with
    | (a, flags) => settled { r with a, flags }
  | .test left f => do
    let value ← r.readOperand operand
    settled { r with flags := f r.flags (r.get left) value }
  | .modify f => do
    let value ← r.readOperand operand
    match f r.flags value, operand with
    | (_, flags), .none => settled { r with flags }
    | (a, flags), .accumulator => settled { r with a, flags }
    | (value, flags), .address address => do
      Transaction.writeByte address value
      settled { r with flags }
  | .branch taken =>
    if taken r.flags then
      withAddress operand fun address => return .ok ({ r with pc := address }, 1)
    else settled r
  | .jump => withAddress operand fun address => settled { r with pc := address }
  | .callSubroutine => withAddress operand fun address =>
    -- the address pushed is that of the instruction's last byte
    let last := r.pc - 1
    r.afterPush [highByte last, lowByte last] fun r => settled { r with pc := address }
  | .returnFromSubroutine => r.afterPull 2 fun values r =>
    settled { r with pc := word values[0] values[1] + 1 }
  | .interrupt =>
    -- the byte after the opcode is skipped on return
    let next := r.pc + 1
    let status := { r.flags with software := true }
    r.afterPush [highByte next, lowByte next, status.toByte] fun r => do
      let pc ← readWord interruptVector
      settled { r with pc, flags := { r.flags with interruptDisable := true } }
  | .returnFromInterrupt => r.afterPull 3 fun values r =>
    settled { r with
      flags := { Flags.ofByte values[0] with software := false, always := true }
      pc := word values[1] values[2] }
  | .pushAccumulator => r.afterPush [r.a] settled
  | .pushFlags => r.afterPush [r.flags.toByte] settled
  | .pullAccumulator => r.afterPull 1 fun values r => settled (r.load .a values[0])
  | .pullFlags => r.afterPull 1 fun values r =>
    settled { r with flags := { Flags.ofByte values[0] with always := true } }
  | .mark f => settled { r with flags := f r.flags }

/-- Execute an instruction on an operand that is already resolved. -/
def execute (r : Registers) (mnemonic : Mnemonic) (operand : Operand) : Transaction Outcome :=
  r.perform operand mnemonic.action

end Registers

end Challenger1P
