import Challenger1P.Proofs.Mos6502.Fetch

/-!
# Actions, written out

Each kind of action on the operands it takes, as the tree of its accesses. Later proofs rewrite with
these equations and do not unfold `perform`. The stack actions are left in two cases, by whether the
bytes fit (`afterPush_of_lt`, `afterPush_of_le`, and the same for pulls); the numbers of bytes are
`Mnemonic.pushes` and `Mnemonic.pulls`. What an action costs beyond its opcode is `Mnemonic.extra`.
-/

namespace Challenger1P

/-- How many bytes an instruction pushes. -/
def Mnemonic.pushes : Mnemonic → Nat
  | .pha | .php => 1
  | .jsr => 2
  | .brk => 3
  | _ => 0

/-- How many bytes an instruction pulls. -/
def Mnemonic.pulls : Mnemonic → Nat
  | .pla | .plp => 1
  | .rts => 2
  | .rti => 3
  | _ => 0

/-- What a branch asks of the flags. -/
def Mnemonic.condition? : Mnemonic → Option (Flags → Bool)
  | .bcc => some (!·.carry)
  | .bcs => some (·.carry)
  | .bne => some (!·.zero)
  | .beq => some (·.zero)
  | .bpl => some (!·.negative)
  | .bmi => some (·.negative)
  | .bvc => some (!·.overflow)
  | .bvs => some (·.overflow)
  | _ => none

/-- What an instruction costs beyond its opcode: a cycle if it is a branch that is taken. -/
def Mnemonic.extra (mnemonic : Mnemonic) (f : Flags) : Nat :=
  (mnemonic.condition?.elim false (· f)).toNat

namespace Registers

open Transaction

variable (r : Registers) (address : UInt16)

/-! ## Operands in memory -/

theorem perform_load (target : Register) :
    r.perform (.address address) (.load target) =
      .read address fun value => .done (.ok (r.load target value, 0)) := rfl

theorem perform_store (source : Register) :
    r.perform (.address address) (.store source) =
      .write address (r.get source) (.done (.ok (r, 0))) := rfl

theorem perform_combine (f : Flags → UInt8 → UInt8 → UInt8 × Flags) :
    r.perform (.address address) (.combine f) =
      .read address fun value => .done (.ok
        ({ r with a := (f r.flags r.a value).1, flags := (f r.flags r.a value).2 }, 0)) := rfl

theorem perform_test (left : Register) (f : Flags → UInt8 → UInt8 → Flags) :
    r.perform (.address address) (.test left f) =
      .read address fun value =>
        .done (.ok ({ r with flags := f r.flags (r.get left) value }, 0)) := rfl

theorem perform_modify (f : Flags → UInt8 → UInt8 × Flags) :
    r.perform (.address address) (.modify f) =
      .read address fun value => .write address (f r.flags value).1
        (.done (.ok ({ r with flags := (f r.flags value).2 }, 0))) := rfl

theorem perform_branch (taken : Flags → Bool) :
    r.perform (.address address) (.branch taken) =
      if taken r.flags then .done (.ok ({ r with pc := address }, 1)) else .done (.ok (r, 0)) := rfl

theorem perform_jump :
    r.perform (.address address) .jump = .done (.ok ({ r with pc := address }, 0)) := rfl

theorem perform_callSubroutine :
    r.perform (.address address) .callSubroutine =
      r.afterPush [highByte (r.pc - 1), lowByte (r.pc - 1)] fun r =>
        .done (.ok ({ r with pc := address }, 0)) := rfl

/-! ## Operands in the processor -/

theorem perform_modify_accumulator (f : Flags → UInt8 → UInt8 × Flags) :
    r.perform .accumulator (.modify f) =
      .done (.ok ({ r with a := (f r.flags r.a).1, flags := (f r.flags r.a).2 }, 0)) := rfl

variable (operand : Operand)

theorem perform_move (value : Registers → UInt8) (target : Register) :
    r.perform operand (.move value target) = .done (.ok (r.load target (value r), 0)) := rfl

theorem perform_setStack :
    r.perform operand .setStack = .done (.ok ({ r with sp := r.x }, 0)) := rfl

theorem perform_mark (f : Flags → Flags) :
    r.perform operand (.mark f) = .done (.ok ({ r with flags := f r.flags }, 0)) := rfl

/-! ## The stack -/

theorem perform_interrupt :
    r.perform operand .interrupt =
      r.afterPush [highByte (r.pc + 1), lowByte (r.pc + 1),
        { r.flags with software := true : Flags }.toByte] fun r =>
          (readWord interruptVector).bind fun pc =>
            .done (.ok ({ r with pc, flags := { r.flags with interruptDisable := true } }, 0)) :=
  rfl

theorem perform_pushAccumulator :
    r.perform operand .pushAccumulator = r.afterPush [r.a] settled := rfl

theorem perform_pushFlags :
    r.perform operand .pushFlags = r.afterPush [r.flags.toByte] settled := rfl

variable {r}

theorem afterPush_of_lt (values : List UInt8) (h : r.sp.toNat < values.length)
    (next : Registers → Transaction Outcome) :
    r.afterPush values next = .done (.error (.fault (.stackOverflow r.sp values.length))) := by
  rw [afterPush, push, if_pos h]
  rfl

theorem afterPush_of_le {values : List UInt8} (h : values.length ≤ r.sp.toNat)
    (next : Registers → Transaction Outcome) :
    r.afterPush values next = (writeDown r.sp values).bind fun sp => next { r with sp } := by
  rw [afterPush, push, if_neg (by omega)]
  show ((writeDown r.sp values).bind _).bind _ = _
  rw [bind_assoc]
  rfl

theorem afterPull_of_lt {count : Nat} (h : 255 < r.sp.toNat + count)
    (next : Vector UInt8 count → Registers → Transaction Outcome) :
    r.afterPull count next = .done (.error (.fault (.stackUnderflow r.sp count))) := by
  rw [afterPull, pull, if_pos h]
  rfl

theorem afterPull_of_le {count : Nat} (h : r.sp.toNat + count ≤ 255)
    (next : Vector UInt8 count → Registers → Transaction Outcome) :
    r.afterPull count next =
      (readUp r.sp count).bind fun result => next result.1 { r with sp := result.2 } := by
  rw [afterPull, pull, if_neg (by omega)]
  show ((readUp r.sp count).bind _).bind _ = _
  rw [bind_assoc]
  rfl

theorem afterPush_ensures {P : Outcome → Prop} (values : List UInt8)
    {next : Registers → Transaction Outcome} (h : values.length ≤ r.sp.toNat)
    (hnext : ∀ r, (next r).Ensures P) : (r.afterPush values next).Ensures P := by
  rw [afterPush_of_le h]
  exact (ensures_true _).bind fun _ _ => hnext _

theorem afterPull_ensures {P : Outcome → Prop} {count : Nat}
    {next : Vector UInt8 count → Registers → Transaction Outcome} (h : r.sp.toNat + count ≤ 255)
    (hnext : ∀ values r, (next values r).Ensures P) : (r.afterPull count next).Ensures P := by
  rw [afterPull_of_le h]
  exact (ensures_true _).bind fun _ _ => hnext _ _

/-- What holds of every refusal, and of what comes after a push that fits, holds either way. -/
theorem afterPush_ensures_or_refused {P : Outcome → Prop} (values : List UInt8)
    {next : Registers → Transaction Outcome} (hrefused : ∀ stop, P (.error stop))
    (hnext : ∀ sp, (next { r with sp }).Ensures P) : (r.afterPush values next).Ensures P := by
  rcases Nat.lt_or_ge r.sp.toNat values.length with h | h
  · rw [afterPush_of_lt values h]
    exact hrefused _
  · rw [afterPush_of_le h]
    exact (ensures_true _).bind fun sp _ => hnext sp

theorem afterPull_ensures_or_refused {P : Outcome → Prop} {count : Nat}
    {next : Vector UInt8 count → Registers → Transaction Outcome}
    (hrefused : ∀ stop, P (.error stop))
    (hnext : ∀ values sp, (next values { r with sp }).Ensures P) :
    (r.afterPull count next).Ensures P := by
  rcases Nat.lt_or_ge 255 (r.sp.toNat + count) with h | h
  · rw [afterPull_of_lt h]
    exact hrefused _
  · rw [afterPull_of_le h]
    exact (ensures_true _).bind fun result _ => hnext result.1 result.2

end Registers

end Challenger1P
