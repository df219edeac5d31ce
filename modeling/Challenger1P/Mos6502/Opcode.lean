import Challenger1P.Mos6502.Mode

/-!
# Opcodes

The instruction set as a matrix of sixteen rows and sixteen columns, one slot for each opcode byte. A
slot holds what the instruction does, how it finds its operand and what it costs; the slots that no
documented instruction has are empty. `decode` is a look-up in it.
-/

namespace Challenger1P

/-- The 56 instructions of the documented set. -/
inductive Mnemonic where
  | adc | and | asl | bcc | bcs | beq | bit | bmi
  | bne | bpl | brk | bvc | bvs | clc | cld | cli
  | clv | cmp | cpx | cpy | dec | dex | dey | eor
  | inc | inx | iny | jmp | jsr | lda | ldx | ldy
  | lsr | nop | ora | pha | php | pla | plp | rol
  | ror | rti | rts | sbc | sec | sed | sei | sta
  | stx | sty | tax | tay | tsx | txa | txs | tya
  deriving DecidableEq, Repr

/-- The three letters that an assembler writes for an instruction. -/
def Mnemonic.name : Mnemonic → String
  | .adc => "ADC" | .and => "AND" | .asl => "ASL" | .bcc => "BCC"
  | .bcs => "BCS" | .beq => "BEQ" | .bit => "BIT" | .bmi => "BMI"
  | .bne => "BNE" | .bpl => "BPL" | .brk => "BRK" | .bvc => "BVC"
  | .bvs => "BVS" | .clc => "CLC" | .cld => "CLD" | .cli => "CLI"
  | .clv => "CLV" | .cmp => "CMP" | .cpx => "CPX" | .cpy => "CPY"
  | .dec => "DEC" | .dex => "DEX" | .dey => "DEY" | .eor => "EOR"
  | .inc => "INC" | .inx => "INX" | .iny => "INY" | .jmp => "JMP"
  | .jsr => "JSR" | .lda => "LDA" | .ldx => "LDX" | .ldy => "LDY"
  | .lsr => "LSR" | .nop => "NOP" | .ora => "ORA" | .pha => "PHA"
  | .php => "PHP" | .pla => "PLA" | .plp => "PLP" | .rol => "ROL"
  | .ror => "ROR" | .rti => "RTI" | .rts => "RTS" | .sbc => "SBC"
  | .sec => "SEC" | .sed => "SED" | .sei => "SEI" | .sta => "STA"
  | .stx => "STX" | .sty => "STY" | .tax => "TAX" | .tay => "TAY"
  | .tsx => "TSX" | .txa => "TXA" | .txs => "TXS" | .tya => "TYA"

/-- All instructions, in alphabetical order. -/
def Mnemonic.all : List Mnemonic :=
  [.adc, .and, .asl, .bcc, .bcs, .beq, .bit, .bmi, .bne, .bpl, .brk, .bvc, .bvs, .clc, .cld, .cli,
  .clv, .cmp, .cpx, .cpy, .dec, .dex, .dey, .eor, .inc, .inx, .iny, .jmp, .jsr, .lda, .ldx, .ldy,
  .lsr, .nop, .ora, .pha, .php, .pla, .plp, .rol, .ror, .rti, .rts, .sbc, .sec, .sed, .sei, .sta,
  .stx, .sty, .tax, .tay, .tsx, .txa, .txs, .tya]

def Mnemonic.ofName? (name : String) : Option Mnemonic := Mnemonic.all.find? (·.name == name)

/-- One slot of the matrix: an instruction in one addressing mode. -/
structure Opcode where
  mnemonic : Mnemonic
  mode : Mode
  /-- What it costs; a taken branch costs one more. -/
  cycles : Nat
  /-- Every instruction costs something, so time passes. -/
  cycles_pos : 1 ≤ cycles := by decide
  deriving DecidableEq, Repr

/-- How many bytes the instruction takes, opcode included. -/
def Opcode.length (op : Opcode) : Nat := 1 + op.mode.operandLength

/-- A filled slot. -/
private def op (mnemonic : Mnemonic) (mode : Mode) (cycles : Nat)
    (cycles_pos : 1 ≤ cycles := by decide) : Option Opcode :=
  some ⟨mnemonic, mode, cycles, cycles_pos⟩

/-- The opcode matrix: the row is the high digit of the opcode, the column its low digit. -/
def opcodeMatrix : Vector (Vector (Option Opcode) 16) 16 := #v[
  #v[op .brk .implied 7, op .ora .indirectX 6, none, none, none, op .ora .zeroPage 3,
  op .asl .zeroPage 5, none, op .php .implied 3, op .ora .immediate 2, op .asl .accumulator 2,
  none, none, op .ora .absolute 4, op .asl .absolute 6, none],
  #v[op .bpl .relative 2, op .ora .indirectY 5, none, none, none, op .ora .zeroPageX 4,
  op .asl .zeroPageX 6, none, op .clc .implied 2, op .ora .absoluteY 4, none, none, none,
  op .ora .absoluteX 4, op .asl .absoluteX 7, none],
  #v[op .jsr .absolute 6, op .and .indirectX 6, none, none, op .bit .zeroPage 3,
  op .and .zeroPage 3, op .rol .zeroPage 5, none, op .plp .implied 4, op .and .immediate 2,
  op .rol .accumulator 2, none, op .bit .absolute 4, op .and .absolute 4, op .rol .absolute 6,
  none],
  #v[op .bmi .relative 2, op .and .indirectY 5, none, none, none, op .and .zeroPageX 4,
  op .rol .zeroPageX 6, none, op .sec .implied 2, op .and .absoluteY 4, none, none, none,
  op .and .absoluteX 4, op .rol .absoluteX 7, none],
  #v[op .rti .implied 6, op .eor .indirectX 6, none, none, none, op .eor .zeroPage 3,
  op .lsr .zeroPage 5, none, op .pha .implied 3, op .eor .immediate 2, op .lsr .accumulator 2,
  none, op .jmp .absolute 3, op .eor .absolute 4, op .lsr .absolute 6, none],
  #v[op .bvc .relative 2, op .eor .indirectY 5, none, none, none, op .eor .zeroPageX 4,
  op .lsr .zeroPageX 6, none, op .cli .implied 2, op .eor .absoluteY 4, none, none, none,
  op .eor .absoluteX 4, op .lsr .absoluteX 7, none],
  #v[op .rts .implied 6, op .adc .indirectX 6, none, none, none, op .adc .zeroPage 3,
  op .ror .zeroPage 5, none, op .pla .implied 4, op .adc .immediate 2, op .ror .accumulator 2,
  none, op .jmp .indirect 5, op .adc .absolute 4, op .ror .absolute 6, none],
  #v[op .bvs .relative 2, op .adc .indirectY 5, none, none, none, op .adc .zeroPageX 4,
  op .ror .zeroPageX 6, none, op .sei .implied 2, op .adc .absoluteY 4, none, none, none,
  op .adc .absoluteX 4, op .ror .absoluteX 7, none],
  #v[none, op .sta .indirectX 6, none, none, op .sty .zeroPage 3, op .sta .zeroPage 3,
  op .stx .zeroPage 3, none, op .dey .implied 2, none, op .txa .implied 2, none,
  op .sty .absolute 4, op .sta .absolute 4, op .stx .absolute 4, none],
  #v[op .bcc .relative 2, op .sta .indirectY 6, none, none, op .sty .zeroPageX 4,
  op .sta .zeroPageX 4, op .stx .zeroPageY 4, none, op .tya .implied 2, op .sta .absoluteY 5,
  op .txs .implied 2, none, none, op .sta .absoluteX 5, none, none],
  #v[op .ldy .immediate 2, op .lda .indirectX 6, op .ldx .immediate 2, none, op .ldy .zeroPage 3,
  op .lda .zeroPage 3, op .ldx .zeroPage 3, none, op .tay .implied 2, op .lda .immediate 2,
  op .tax .implied 2, none, op .ldy .absolute 4, op .lda .absolute 4, op .ldx .absolute 4, none],
  #v[op .bcs .relative 2, op .lda .indirectY 5, none, none, op .ldy .zeroPageX 4,
  op .lda .zeroPageX 4, op .ldx .zeroPageY 4, none, op .clv .implied 2, op .lda .absoluteY 4,
  op .tsx .implied 2, none, op .ldy .absoluteX 4, op .lda .absoluteX 4, op .ldx .absoluteY 4, none],
  #v[op .cpy .immediate 2, op .cmp .indirectX 6, none, none, op .cpy .zeroPage 3,
  op .cmp .zeroPage 3, op .dec .zeroPage 5, none, op .iny .implied 2, op .cmp .immediate 2,
  op .dex .implied 2, none, op .cpy .absolute 4, op .cmp .absolute 4, op .dec .absolute 6, none],
  #v[op .bne .relative 2, op .cmp .indirectY 5, none, none, none, op .cmp .zeroPageX 4,
  op .dec .zeroPageX 6, none, op .cld .implied 2, op .cmp .absoluteY 4, none, none, none,
  op .cmp .absoluteX 4, op .dec .absoluteX 7, none],
  #v[op .cpx .immediate 2, op .sbc .indirectX 6, none, none, op .cpx .zeroPage 3,
  op .sbc .zeroPage 3, op .inc .zeroPage 5, none, op .inx .implied 2, op .sbc .immediate 2,
  op .nop .implied 2, none, op .cpx .absolute 4, op .sbc .absolute 4, op .inc .absolute 6, none],
  #v[op .beq .relative 2, op .sbc .indirectY 5, none, none, none, op .sbc .zeroPageX 4,
  op .inc .zeroPageX 6, none, op .sed .implied 2, op .sbc .absoluteY 4, none, none, none,
  op .sbc .absoluteX 4, op .inc .absoluteX 7, none]]

/-- The instruction that an opcode byte stands for, if it is a documented one. -/
def decode (opcode : UInt8) : Option Opcode :=
  have := opcode.toNat_lt
  (opcodeMatrix[opcode.toNat / 16])[opcode.toNat % 16]

end Challenger1P
