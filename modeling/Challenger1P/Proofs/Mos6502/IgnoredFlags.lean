import Challenger1P.Memory.Store
import Challenger1P.Proofs.Mos6502.Return

/-!
# Flags without effect

Instructions compute with the carry, test it and three more flags, and look at no other flag: there
is no decimal arithmetic, interrupts never come, and nothing asks for the break flag or the unused
one. These are seen only where the whole status register is pushed. So two processors that differ in
these four flags at most (`Cpu.Agree`) do the same, access by access, until one of them pushes it.

* `Transaction.Matches`: two computations that make the same accesses whatever they read.
* `perform_matches`: an action that is blind to the four flags does so for registers that agree.
* `Agree.step`: what follows for a step, and from it by induction for a run.
-/

namespace Challenger1P

/-! ## Transactions that match -/

namespace Transaction

variable {α α' γ γ' β : Type}

/-- As long as both read the same bytes, they make the same accesses, and they end with results that
are related. -/
inductive Matches (R : α → α' → Prop) : Transaction α → Transaction α' → Prop where
  | done {result : α} {result' : α'} (h : R result result') :
      Matches R (.done result) (.done result')
  | read (address : UInt16) {next : UInt8 → Transaction α} {next' : UInt8 → Transaction α'}
      (h : ∀ value, Matches R (next value) (next' value)) :
      Matches R (.read address next) (.read address next')
  | write (address : UInt16) (value : UInt8) {next : Transaction α} {next' : Transaction α'}
      (h : Matches R next next') :
      Matches R (.write address value next) (.write address value next')

variable {R : α → α' → Prop} {t : Transaction α} {t' : Transaction α'}

theorem matches_self (t : Transaction α) : t.Matches Eq t := by
  induction t with
  | done result => exact .done rfl
  | read address next ih => exact .read address ih
  | write address value next ih => exact .write address value ih

theorem Matches.bind {S : γ → γ' → Prop} {f : α → Transaction γ} {f' : α' → Transaction γ'}
    (h : t.Matches R t') (hnext : ∀ result result', R result result' →
      (f result).Matches S (f' result')) : (t.bind f).Matches S (t'.bind f') := by
  induction h with
  | done h => exact hnext _ _ h
  | read address h ih => exact .read address ih
  | write address value h ih => exact .write address value ih

/-- After the same beginning. -/
theorem bind_matches {S : γ → γ' → Prop} {f : α → Transaction γ} {f' : α → Transaction γ'}
    (t : Transaction α) (hnext : ∀ result, (f result).Matches S (f' result)) :
    (t.bind f).Matches S (t.bind f') := by
  refine (matches_self t).bind ?_
  rintro result _ rfl
  exact hnext result

theorem Matches.run [Bus β] (h : t.Matches R t') (bus : β) :
    R (t.run bus).1 (t'.run bus).1 ∧ (t'.run bus).2 = (t.run bus).2 := by
  induction h generalizing bus with
  | done h => exact ⟨h, rfl⟩
  | read address h ih => exact ih _ _
  | write address value h ih => exact ih _

theorem Matches.accesses [Bus β] (h : t.Matches R t') (bus : β) :
    t'.accesses bus = t.accesses bus := by
  induction h generalizing bus with
  | done h => rfl
  | read address h ih => exact congrArg _ (ih _ _)
  | write address value h ih => exact congrArg _ (ih _)

end Transaction

/-! ## Flags that agree -/

/-- The two differ in the interrupt, decimal, break and unused flags at most. -/
structure Flags.Agree (f g : Flags) : Prop where
  carry_eq : g.carry = f.carry
  zero_eq : g.zero = f.zero
  overflow_eq : g.overflow = f.overflow
  negative_eq : g.negative = f.negative

theorem Flags.Agree.refl (f : Flags) : f.Agree f := ⟨rfl, rfl, rfl, rfl⟩

/-- The other two flags come from the result. -/
theorem Flags.forResult_agree {f g : Flags} (hcarry : g.carry = f.carry)
    (hoverflow : g.overflow = f.overflow) (result : UInt8) :
    (f.forResult result).Agree (g.forResult result) := ⟨hcarry, rfl, hoverflow, rfl⟩

/-- The two differ in flags without effect at most. -/
structure Registers.Agree (r s : Registers) : Prop where
  a_eq : s.a = r.a
  x_eq : s.x = r.x
  y_eq : s.y = r.y
  sp_eq : s.sp = r.sp
  pc_eq : s.pc = r.pc
  flags_agree : r.flags.Agree s.flags

/-- What an action computes does not depend on the flags without effect. -/
def Action.Blind : Action → Prop
  | .move value _ => ∀ r s, r.Agree s → value s = value r
  | .combine f => ∀ g g', g.Agree g' → ∀ a m,
      (f g' a m).1 = (f g a m).1 ∧ (f g a m).2.Agree (f g' a m).2
  | .test _ f => ∀ g g', g.Agree g' → ∀ left m, (f g left m).Agree (f g' left m)
  | .modify f => ∀ g g', g.Agree g' → ∀ value,
      (f g' value).1 = (f g value).1 ∧ (f g value).2.Agree (f g' value).2
  | .branch taken => ∀ g g', g.Agree g' → taken g' = taken g
  | .mark f => ∀ g g', g.Agree g' → (f g).Agree (f g')
  | .pushFlags | .interrupt => False
  | _ => True

namespace Alu

variable {f g : Flags}

theorem passing_agree (hcarry : g.carry = f.carry) (hoverflow : g.overflow = f.overflow)
    (result : UInt8) :
    (passing g result).1 = (passing f result).1 ∧
      (passing f result).2.Agree (passing g result).2 :=
  ⟨rfl, Flags.forResult_agree hcarry hoverflow result⟩

theorem add_agree (h : f.Agree g) (a m : UInt8) :
    (add g a m).1 = (add f a m).1 ∧ (add f a m).2.Agree (add g a m).2 := by
  rw [add, add, h.carry_eq]
  refine passing_agree ?_ ?_ _ <;> rfl

theorem subtract_agree (h : f.Agree g) (a m : UInt8) :
    (subtract g a m).1 = (subtract f a m).1 ∧ (subtract f a m).2.Agree (subtract g a m).2 := by
  rw [subtract, subtract, h.carry_eq]
  refine passing_agree ?_ ?_ _ <;> rfl

theorem compare_agree (h : f.Agree g) (left m : UInt8) :
    (compare f left m).Agree (compare g left m) := ⟨rfl, rfl, h.overflow_eq, rfl⟩

theorem bitTest_agree (h : f.Agree g) (a m : UInt8) : (bitTest f a m).Agree (bitTest g a m) :=
  ⟨h.carry_eq, rfl, rfl, rfl⟩

/-- A shift has its new carry from the value. -/
theorem shifted_agree (h : f.Agree g) (carry : Bool) (result : UInt8) :
    (passing { g with carry } result).1 = (passing { f with carry } result).1 ∧
      (passing { f with carry } result).2.Agree (passing { g with carry } result).2 :=
  passing_agree (f := { f with carry }) (g := { g with carry }) rfl h.overflow_eq result

theorem rotateLeft_agree (h : f.Agree g) (value : UInt8) :
    (rotateLeft g value).1 = (rotateLeft f value).1 ∧
      (rotateLeft f value).2.Agree (rotateLeft g value).2 := by
  rw [rotateLeft, rotateLeft, h.carry_eq]
  exact shifted_agree h _ _

theorem rotateRight_agree (h : f.Agree g) (value : UInt8) :
    (rotateRight g value).1 = (rotateRight f value).1 ∧
      (rotateRight f value).2.Agree (rotateRight g value).2 := by
  rw [rotateRight, rotateRight, h.carry_eq]
  exact shifted_agree h _ _

end Alu

/-- All instructions are blind but the two that push the status register. -/
theorem Mnemonic.blind_action {mnemonic : Mnemonic} (hphp : mnemonic ≠ .php)
    (hbrk : mnemonic ≠ .brk) : mnemonic.action.Blind := by
  cases mnemonic
  case php => exact absurd rfl hphp
  case brk => exact absurd rfl hbrk
  case adc => exact fun _ _ h => Alu.add_agree h
  case sbc => exact fun _ _ h => Alu.subtract_agree h
  case and | ora | eor => exact fun _ _ h _ _ => Alu.passing_agree h.carry_eq h.overflow_eq _
  case bit => exact fun _ _ h => Alu.bitTest_agree h
  case cmp | cpx | cpy => exact fun _ _ h => Alu.compare_agree h
  case inc | dec => exact fun _ _ h _ => Alu.passing_agree h.carry_eq h.overflow_eq _
  case asl | lsr => exact fun _ _ h _ => Alu.shifted_agree h _ _
  case rol => exact fun _ _ h => Alu.rotateLeft_agree h
  case ror => exact fun _ _ h => Alu.rotateRight_agree h
  case bcc => exact fun _ _ h => congrArg _ h.carry_eq
  case bne => exact fun _ _ h => congrArg _ h.zero_eq
  case bpl => exact fun _ _ h => congrArg _ h.negative_eq
  case bvc => exact fun _ _ h => congrArg _ h.overflow_eq
  case bcs => exact fun _ _ h => h.carry_eq
  case beq => exact fun _ _ h => h.zero_eq
  case bmi => exact fun _ _ h => h.negative_eq
  case bvs => exact fun _ _ h => h.overflow_eq
  case clc | sec => exact fun _ _ h => ⟨rfl, h.zero_eq, h.overflow_eq, h.negative_eq⟩
  case clv => exact fun _ _ h => ⟨h.carry_eq, h.zero_eq, rfl, h.negative_eq⟩
  case cld | cli | sed | sei | nop =>
    exact fun _ _ h => ⟨h.carry_eq, h.zero_eq, h.overflow_eq, h.negative_eq⟩
  case tax | tay => exact fun _ _ h => h.a_eq
  case txa => exact fun _ _ h => h.x_eq
  case tya => exact fun _ _ h => h.y_eq
  case tsx => exact fun _ _ h => h.sp_eq
  case inx => exact fun _ _ h => congrArg (· + 1) h.x_eq
  case iny => exact fun _ _ h => congrArg (· + 1) h.y_eq
  case dex => exact fun _ _ h => congrArg (· - 1) h.x_eq
  case dey => exact fun _ _ h => congrArg (· - 1) h.y_eq
  all_goals trivial

/-! ## One action -/

namespace Registers

open Transaction

variable {r s : Registers}

theorem Agree.exists_flags (h : r.Agree s) : ∃ f, r.flags.Agree f ∧ s = { r with flags := f } := by
  obtain ⟨a, x, y, sp, pc, flags⟩ := s
  obtain ⟨rfl, rfl, rfl, rfl, rfl, hflags⟩ := h
  exact ⟨flags, hflags, rfl⟩

theorem agree_of_flags {f g : Flags} (r : Registers) (h : f.Agree g) :
    { r with flags := f }.Agree { r with flags := g } := ⟨rfl, rfl, rfl, rfl, rfl, h⟩

theorem Agree.get_eq (h : r.Agree s) (source : Register) : s.get source = r.get source := by
  cases source
  · exact h.a_eq
  · exact h.x_eq
  · exact h.y_eq

theorem Agree.load (h : r.Agree s) (target : Register) (value : UInt8) :
    (r.load target value).Agree (s.load target value) := by
  obtain ⟨f, hf, rfl⟩ := h.exists_flags
  have hflags := Flags.forResult_agree hf.carry_eq hf.overflow_eq value
  cases target <;> exact agree_of_flags _ hflags

theorem Agree.advance (h : r.Agree s) (count : Nat) : (r.advance count).Agree (s.advance count) :=
  ⟨h.a_eq, h.x_eq, h.y_eq, h.sp_eq, congrArg (· + UInt16.ofNat count) h.pc_eq, h.flags_agree⟩

/-- Two actions end alike: both refused for the same reason, or both done at the same cost. -/
inductive EndAlike : Outcome → Outcome → Prop where
  | refused (stop : Stop) : EndAlike (.error stop) (.error stop)
  | done {final final' : Registers} (h : final.Agree final') (extra : Nat) :
      EndAlike (.ok (final, extra)) (.ok (final', extra))

theorem settled_matches (h : r.Agree s) : r.settled.Matches EndAlike s.settled := .done (.done h 0)

theorem readOperand_matches (h : r.Agree s) (operand : Operand) :
    (r.readOperand operand).Matches Eq (s.readOperand operand) := by
  cases operand with
  | none => exact .done rfl
  | accumulator => exact .done h.a_eq.symm
  | address address => exact matches_self _

theorem withAddress_matches {operand : Operand} {next next' : UInt16 → Transaction Outcome}
    (hnext : ∀ address, (next address).Matches EndAlike (next' address)) :
    (withAddress operand next).Matches EndAlike (withAddress operand next') := by
  cases operand with
  | none => exact .done (.refused _)
  | accumulator => exact .done (.refused _)
  | address address => exact hnext address

theorem afterPush_matches (h : r.Agree s) (values : List UInt8)
    {next next' : Registers → Transaction Outcome}
    (hnext : ∀ r s, r.Agree s → (next r).Matches EndAlike (next' s)) :
    (r.afterPush values next).Matches EndAlike (s.afterPush values next') := by
  obtain ⟨f, hf, rfl⟩ := h.exists_flags
  rcases Nat.lt_or_ge r.sp.toNat values.length with hlt | hle
  · rw [afterPush_of_lt values hlt, afterPush_of_lt (r := { r with flags := f }) values hlt]
    exact .done (.refused _)
  · rw [afterPush_of_le hle, afterPush_of_le (r := { r with flags := f }) hle]
    exact bind_matches (writeDown r.sp values) fun sp => hnext _ _ (agree_of_flags { r with sp } hf)

theorem afterPull_matches (h : r.Agree s) {count : Nat}
    {next next' : Vector UInt8 count → Registers → Transaction Outcome}
    (hnext : ∀ values r s, r.Agree s → (next values r).Matches EndAlike (next' values s)) :
    (r.afterPull count next).Matches EndAlike (s.afterPull count next') := by
  obtain ⟨f, hf, rfl⟩ := h.exists_flags
  rcases Nat.lt_or_ge 255 (r.sp.toNat + count) with hlt | hle
  · rw [afterPull_of_lt hlt, afterPull_of_lt (r := { r with flags := f }) hlt]
    exact .done (.refused _)
  · rw [afterPull_of_le hle, afterPull_of_le (r := { r with flags := f }) hle]
    exact bind_matches (readUp r.sp count) fun result =>
      hnext _ _ _ (agree_of_flags { r with sp := result.2 } hf)

/-- An action that is blind to the flags without effect does the same whatever they are. -/
theorem perform_matches (h : r.Agree s) (operand : Operand) {action : Action}
    (hblind : action.Blind) :
    (r.perform operand action).Matches EndAlike (s.perform operand action) := by
  obtain ⟨f, hf, rfl⟩ := h.exists_flags
  cases action with
  | load target =>
    refine (readOperand_matches h operand).bind ?_
    rintro value _ rfl
    exact settled_matches (h.load target value)
  | store source =>
    refine withAddress_matches fun address => ?_
    rw [h.get_eq]
    exact bind_matches (writeByte address (r.get source)) fun _ => settled_matches h
  | move value target =>
    rw [perform_move, perform_move, hblind _ _ h]
    exact .done (.done (h.load target _) 0)
  | setStack => exact settled_matches (agree_of_flags { r with sp := r.x } hf)
  | combine g =>
    refine (readOperand_matches h operand).bind ?_
    rintro value _ rfl
    obtain ⟨hresult, hflags⟩ := hblind _ _ hf r.a value
    refine .done (.done ?_ 0)
    rw [hresult]
    exact agree_of_flags { r with a := (g r.flags r.a value).1 } hflags
  | test left g =>
    refine (readOperand_matches h operand).bind ?_
    rintro value _ rfl
    refine settled_matches ?_
    rw [h.get_eq]
    exact agree_of_flags r (hblind _ _ hf (r.get left) value)
  | modify g =>
    cases operand with
    | none => exact settled_matches (agree_of_flags r (hblind _ _ hf 0).2)
    | accumulator =>
      obtain ⟨hresult, hflags⟩ := hblind _ _ hf r.a
      rw [perform_modify_accumulator, perform_modify_accumulator, hresult]
      exact .done (.done (agree_of_flags { r with a := (g r.flags r.a).1 } hflags) 0)
    | address address =>
      rw [perform_modify, perform_modify]
      refine .read address fun value => ?_
      obtain ⟨hresult, hflags⟩ := hblind _ _ hf value
      rw [hresult]
      exact .write address _ (.done (.done (agree_of_flags r hflags) 0))
  | branch taken =>
    have htaken : taken f = taken r.flags := hblind _ _ hf
    simp only [perform, htaken]
    split
    · exact withAddress_matches fun pc => .done (.done (agree_of_flags { r with pc } hf) 1)
    · exact settled_matches h
  | jump => exact withAddress_matches fun pc => settled_matches (agree_of_flags { r with pc } hf)
  | callSubroutine =>
    refine withAddress_matches fun address => afterPush_matches h _ fun r s h => ?_
    exact settled_matches ⟨h.a_eq, h.x_eq, h.y_eq, h.sp_eq, rfl, h.flags_agree⟩
  | returnFromSubroutine =>
    refine afterPull_matches h fun values r s h => ?_
    exact settled_matches ⟨h.a_eq, h.x_eq, h.y_eq, h.sp_eq, rfl, h.flags_agree⟩
  | interrupt => exact hblind.elim
  | returnFromInterrupt =>
    refine afterPull_matches h fun values r s h => ?_
    exact settled_matches ⟨h.a_eq, h.x_eq, h.y_eq, h.sp_eq, rfl, .refl _⟩
  | pushAccumulator => exact afterPush_matches h _ fun r s h => settled_matches h
  | pushFlags => exact hblind.elim
  | pullAccumulator =>
    exact afterPull_matches h fun values r s h => settled_matches (h.load .a values[0])
  | pullFlags =>
    refine afterPull_matches h fun values r s h => ?_
    exact settled_matches ⟨h.a_eq, h.x_eq, h.y_eq, h.sp_eq, h.pc_eq, .refl _⟩
  | mark g => exact settled_matches (agree_of_flags r (hblind _ _ hf))

/-! ## Finding the operand -/

/-- The same was fetched or found, and the registers after it agree. -/
def FoundAlike {α : Type} (found found' : α × Registers) : Prop :=
  found'.1 = found.1 ∧ found.2.Agree found'.2

theorem matches_bind_of_found {α γ γ' : Type} {S : γ → γ' → Prop}
    {t t' : Transaction (α × Registers)} {f : α × Registers → Transaction γ}
    {f' : α × Registers → Transaction γ'} (h : t.Matches FoundAlike t')
    (hnext : ∀ value r s, r.Agree s → (f (value, r)).Matches S (f' (value, s))) :
    (t.bind f).Matches S (t'.bind f') := by
  refine h.bind ?_
  rintro ⟨value, r⟩ ⟨_, s⟩ ⟨rfl, hagree⟩
  exact hnext _ r s hagree

theorem fetchByte_matches (h : r.Agree s) : r.fetchByte.Matches FoundAlike s.fetchByte := by
  rw [fetchByte_eq, fetchByte_eq, h.pc_eq]
  exact .read r.pc fun value => .done ⟨rfl, h.advance 1⟩

theorem fetchWord_matches (h : r.Agree s) : r.fetchWord.Matches FoundAlike s.fetchWord := by
  rw [fetchWord_eq, fetchWord_eq, h.pc_eq]
  exact .read r.pc fun low => .read (r.pc + 1) fun high => .done ⟨rfl, h.advance 2⟩

theorem resolve_matches (h : r.Agree s) (mode : Mode) :
    (r.resolve mode).Matches FoundAlike (s.resolve mode) := by
  cases mode with
  | implied => exact .done ⟨rfl, h⟩
  | accumulator => exact .done ⟨rfl, h⟩
  | immediate => exact .done ⟨congrArg Operand.address h.pc_eq, h.advance 1⟩
  | zeroPage =>
    exact matches_bind_of_found (fetchByte_matches h) fun base r s h => .done ⟨rfl, h⟩
  | zeroPageX =>
    exact matches_bind_of_found (fetchByte_matches h) fun base r s h => .done ⟨by rw [h.x_eq], h⟩
  | zeroPageY =>
    exact matches_bind_of_found (fetchByte_matches h) fun base r s h => .done ⟨by rw [h.y_eq], h⟩
  | absolute =>
    exact matches_bind_of_found (fetchWord_matches h) fun base r s h => .done ⟨rfl, h⟩
  | absoluteX =>
    exact matches_bind_of_found (fetchWord_matches h) fun base r s h => .done ⟨by rw [h.x_eq], h⟩
  | absoluteY =>
    exact matches_bind_of_found (fetchWord_matches h) fun base r s h => .done ⟨by rw [h.y_eq], h⟩
  | indirect =>
    refine matches_bind_of_found (fetchWord_matches h) fun pointer r s h => ?_
    exact bind_matches (readWord pointer) fun address => .done ⟨rfl, h⟩
  | indirectX =>
    refine matches_bind_of_found (fetchByte_matches h) fun pointer r s h => ?_
    show ((readZeroPageWord (pointer + r.x)).bind _).Matches FoundAlike
      ((readZeroPageWord (pointer + s.x)).bind _)
    rw [h.x_eq]
    exact bind_matches (readZeroPageWord (pointer + r.x)) fun address => .done ⟨rfl, h⟩
  | indirectY =>
    refine matches_bind_of_found (fetchByte_matches h) fun pointer r s h => ?_
    exact bind_matches (readZeroPageWord pointer) fun address => .done ⟨by rw [h.y_eq], h⟩
  | relative =>
    exact matches_bind_of_found (fetchByte_matches h) fun distance r s h =>
      .done ⟨by rw [h.pc_eq], h⟩

end Registers

namespace Cpu

/-! ## Processors that agree -/

section Agree

variable {β : Type}

/-- The two are in the same state, their buses and what stopped them included, but for flags without
effect. -/
structure Agree (c d : Cpu β) : Prop where
  registers_agree : c.registers.Agree d.registers
  cycles_eq : d.cycles = c.cycles
  bus_eq : d.bus = c.bus
  stop_eq : d.stop = c.stop

theorem agree_charge {r s : Registers} (h : r.Agree s) (cycles : UInt64) (bus : β) (cost : Nat) :
    (charge { registers := r, cycles, bus } cost).Agree
      (charge { registers := s, cycles, bus } cost) := by
  unfold charge
  split <;> exact ⟨h, rfl, rfl, rfl⟩

variable [Bus β] {c d : Cpu β}

/-- The next step pushes the status register. -/
def PushesStatus (c : Cpu β) : Prop :=
  (c.mnemonic = some .php ∨ c.mnemonic = some .brk) ∧ c.stop = none ∧ c.step.halted = false

theorem Agree.opcode_eq (h : c.Agree d) : d.opcode = c.opcode := by
  rw [opcode, opcode, h.bus_eq, h.registers_agree.pc_eq]

theorem Agree.busFetched_eq (h : c.Agree d) : d.busFetched = c.busFetched := by
  rw [busFetched, busFetched, h.bus_eq, h.registers_agree.pc_eq]

/-- The two find the same operand, and on the same way. -/
theorem Agree.located (h : c.Agree d) {op : Opcode} {operand : Operand} {bus : β}
    {log : List Access} (hloc : c.Located op operand bus log) : d.Located op operand bus log := by
  have hop : decode d.opcode = some op := by rw [h.opcode_eq, hloc.decode_eq]
  obtain ⟨operand', bus', log', hloc'⟩ := exists_located hop
  have hmatches := Registers.resolve_matches (h.registers_agree.advance 1) op.mode
  have hrun := hmatches.run c.busFetched
  have haccesses := hmatches.accesses c.busFetched
  rw [← h.busFetched_eq, hloc'.run_eq, h.busFetched_eq, hloc.run_eq] at hrun
  obtain ⟨⟨rfl, -⟩, rfl⟩ := hrun
  have hlog : log' = log := by
    rw [hloc'.log_eq, hloc.log_eq, h.registers_agree.pc_eq, h.opcode_eq, h.busFetched_eq, haccesses]
  exact hlog ▸ hloc'

/-- The two execute the instruction alike: it is blind to what they differ in, or the stack refuses
it on both. -/
theorem Agree.execute_matches (h : c.Agree d) (hstop : c.stop = none) (hquiet : ¬ c.PushesStatus)
    {op : Opcode} {operand : Operand} {bus : β} {log : List Access}
    (hloc : c.Located op operand bus log) :
    ((c.registers.advance op.length).execute op.mnemonic operand).Matches Registers.EndAlike
      ((d.registers.advance op.length).execute op.mnemonic operand) := by
  by_cases hpushes : op.mnemonic = .php ∨ op.mnemonic = .brk
  · -- it is not about to push, so the step halts
    have hfault := fault_step_of_decode hstop hloc.decode_eq
    cases hcause : c.registers.stackFault op.mnemonic with
    | none =>
      rw [hcause] at hfault
      refine absurd ⟨?_, hstop, ?_⟩ hquiet
      · rw [mnemonic, hloc.decode_eq]
        simpa using hpushes
      · rw [halted, hfault]
        rfl
    | some cause =>
      have hcause' : d.registers.stackFault op.mnemonic = some cause := by
        rw [← hcause, Registers.stackFault, Registers.stackFault, h.registers_agree.sp_eq]
      rw [Registers.execute_of_stackFault (r := c.registers.advance op.length) hcause hloc.takes,
        Registers.execute_of_stackFault (r := d.registers.advance op.length) hcause' hloc.takes]
      exact .done (.refused _)
  · rw [not_or] at hpushes
    exact Registers.perform_matches (h.registers_agree.advance op.length) operand
      (Mnemonic.blind_action hpushes.1 hpushes.2)

/-- The instruction comes to the same on both. -/
theorem Agree.instruction (h : c.Agree d) (hstop : c.stop = none) (hquiet : ¬ c.PushesStatus) :
    ∃ final final' outcome bus, final.Agree final' ∧
      c.registers.instruction.run c.bus = ((final, outcome), bus) ∧
      d.registers.instruction.run d.bus = ((final', outcome), bus) ∧
      d.registers.instruction.accesses d.bus = c.registers.instruction.accesses c.bus := by
  cases hop : decode c.opcode with
  | none =>
    obtain ⟨hrun, haccesses⟩ := instruction_of_undecoded hop
    obtain ⟨hrun', haccesses'⟩ := instruction_of_undecoded (c := d) (by rwa [h.opcode_eq])
    rw [h.opcode_eq, h.registers_agree.pc_eq, h.busFetched_eq] at hrun'
    refine ⟨_, _, _, _, h.registers_agree.advance 1, hrun, hrun', ?_⟩
    rw [haccesses, haccesses', h.opcode_eq, h.registers_agree.pc_eq]
  | some op =>
    obtain ⟨operand, bus, log, hloc⟩ := exists_located hop
    have hmatches := h.execute_matches hstop hquiet hloc
    have hrun := run_instruction hloc
    have hrun' := run_instruction (h.located hloc)
    have haccesses : d.registers.instruction.accesses d.bus =
        c.registers.instruction.accesses c.bus := by
      rw [accesses_instruction hloc, accesses_instruction (h.located hloc), hmatches.accesses bus]
    obtain ⟨hend, hbus⟩ := hmatches.run bus
    rcases hex : ((c.registers.advance op.length).execute op.mnemonic operand).run bus with
      ⟨outcome, after⟩
    rcases hex' : ((d.registers.advance op.length).execute op.mnemonic operand).run bus with
      ⟨outcome', after'⟩
    rw [hex, hex'] at hend hbus
    obtain rfl := hbus
    rw [hex] at hrun
    rw [hex'] at hrun'
    cases hend with
    | refused stop =>
      exact ⟨_, _, _, _, h.registers_agree.advance op.length, hrun, hrun', haccesses⟩
    | done hfinal extra => exact ⟨_, _, _, _, hfinal, hrun, hrun', haccesses⟩

/-- A step that does not push the status register. -/
theorem Agree.step (h : c.Agree d) (hquiet : ¬ c.PushesStatus) :
    c.step.Agree d.step ∧ d.accesses 1 = c.accesses 1 := by
  cases hstop : c.stop with
  | some stop =>
    have hc : c.stop ≠ none := by simp [hstop]
    have hd : d.stop ≠ none := by rwa [h.stop_eq]
    rw [step_of_stopped hc, step_of_stopped hd, accesses_of_stopped hc, accesses_of_stopped hd]
    exact ⟨h, rfl⟩
  | none =>
    have hstop' : d.stop = none := h.stop_eq.trans hstop
    obtain ⟨final, final', outcome, bus, hfinal, hrun, hrun', haccesses⟩ :=
      h.instruction hstop hquiet
    rw [accesses_one hstop, accesses_one hstop']
    refine ⟨?_, haccesses⟩
    cases outcome with
    | error stop =>
      rw [step_of_error hstop hrun, step_of_error hstop' hrun', h.cycles_eq]
      exact ⟨hfinal, rfl, rfl, rfl⟩
    | ok cost =>
      rw [step_of_ok hstop hrun, step_of_ok hstop' hrun', h.cycles_eq]
      exact agree_charge hfinal _ _ _

/-- A run that does not push the status register. -/
theorem Agree.steps (h : c.Agree d) {count : Nat}
    (hquiet : ∀ i < count, ¬ (c.steps i).PushesStatus) :
    (c.steps count).Agree (d.steps count) ∧ d.accesses count = c.accesses count := by
  induction count generalizing c d with
  | zero => exact ⟨h, rfl⟩
  | succ count ih =>
    obtain ⟨hstep, haccesses⟩ := h.step (hquiet 0 (Nat.succ_pos _))
    obtain ⟨hrest, hlater⟩ := ih hstep fun i hi => hquiet (i + 1) (Nat.succ_lt_succ hi)
    refine ⟨hrest, ?_⟩
    rw [accesses_succ, accesses_succ count c, haccesses, hlater]

/-! ## The instructions for these flags -/

/-- What an instruction of two cycles that does nothing would leave. -/
def skipped (c : Cpu β) : Cpu β :=
  charge { registers := c.registers.advance 1, cycles := c.cycles, bus := c.busFetched } 2

end Agree

end Cpu

/-- Whether an instruction sets or clears the interrupt flag or the decimal flag. -/
def Mnemonic.marksIgnored : Mnemonic → Bool
  | .sed | .cld | .sei | .cli => true
  | _ => false

theorem Mnemonic.exists_mark {mnemonic : Mnemonic} (h : mnemonic.marksIgnored = true) :
    ∃ f, mnemonic.action = .mark f ∧ ∀ g, (f g).Agree g := by
  cases mnemonic
  case sed | cld | sei | cli => exact ⟨_, rfl, fun g => ⟨rfl, rfl, rfl, rfl⟩⟩
  all_goals cases h

/-- In the whole matrix, these instructions have no operand and take two cycles. -/
theorem marksIgnored_of_decode {opcode : UInt8} {op : Opcode} (h : decode opcode = some op) :
    op.mnemonic.marksIgnored = true → op.mode = .implied ∧ op.cycles = 2 :=
  of_decode (P := fun op => op.mnemonic.marksIgnored = true → op.mode = .implied ∧ op.cycles = 2)
    (by decide +kernel) h

namespace Cpu

variable {β : Type} [Bus β] {c d : Cpu β}

theorem step_of_marksIgnored {mnemonic : Mnemonic} (h : c.stop = none)
    (hnext : c.mnemonic = some mnemonic) (hmarks : mnemonic.marksIgnored = true) :
    c.step.Agree c.skipped := by
  obtain ⟨op, hop, rfl⟩ := exists_decode_of_mnemonic hnext
  obtain ⟨hmode, hcycles⟩ := marksIgnored_of_decode hop hmarks
  obtain ⟨f, haction, hagree⟩ := Mnemonic.exists_mark hmarks
  have hlength : op.length = 1 := by rw [Opcode.length, hmode]; rfl
  obtain ⟨operand, bus, log, hloc⟩ := exists_located hop
  have hfound := hloc.run_eq
  rw [hmode] at hfound
  have hbus : c.busFetched = bus := congrArg Prod.snd hfound
  have hrun := run_instruction hloc
  rw [Registers.execute, haction, Registers.perform_mark, Transaction.run_done, hlength] at hrun
  rw [step_of_ok h hrun, skipped, hbus, hcycles]
  exact agree_charge (Registers.agree_of_flags (c.registers.advance 1) (hagree _)) _ _ _

/-- Processors that differ in the interrupt, decimal, break and unused flags at most make the same
accesses with the same values, step by step, and never come to differ in anything else, as long as
the status register is not pushed. The instructions for the first two flags are no exception: the
run goes on as if they did nothing. -/
theorem ignored_flags_have_no_effect (h : c.Agree d) (count : Nat)
    (hquiet : ∀ i < count, ¬ (c.steps i).PushesStatus) :
    (∀ i ≤ count, (c.steps i).Agree (d.steps i)) ∧
    (∀ i < count, (d.steps i).accesses 1 = (c.steps i).accesses 1) ∧
    d.accesses count = c.accesses count ∧
    ∀ i mnemonic, (c.steps i).stop = none → (c.steps i).mnemonic = some mnemonic →
      mnemonic.marksIgnored = true → ∀ more, i + 1 + more ≤ count →
        (c.steps (i + 1 + more)).Agree ((c.steps i).skipped.steps more) := by
  have hagree : ∀ i ≤ count, (c.steps i).Agree (d.steps i) := fun i hi =>
    (h.steps fun j hj => hquiet j (Nat.lt_of_lt_of_le hj hi)).1
  refine ⟨hagree, ?_, (h.steps hquiet).2, ?_⟩
  · intro i hi
    exact ((hagree i (Nat.le_of_lt hi)).step (hquiet i hi)).2
  · intro i mnemonic hstop hnext hmarks more hmore
    have hskipped : (c.steps (i + 1)).Agree (c.steps i).skipped := by
      rw [steps_add]
      exact step_of_marksIgnored hstop hnext hmarks
    rw [steps_add]
    refine (hskipped.steps fun j hj => ?_).1
    rw [← steps_add]
    exact hquiet (i + 1 + j) (by omega)

/-- `SED` and then `ADC #$19`, on processors that differ in all four flags. -/
theorem ignored_flags_have_no_effect_on_decimal_sum :
    let c : Cpu Store :=
      { registers := { a := 0x28 }, bus := ((Store.blank.set 0 0xF8).set 1 0x69).set 2 0x19 }
    let d : Cpu Store :=
      { c with registers :=
          { a := 0x28
            flags :=
              { interruptDisable := true, decimal := true, software := true, always := true } } }
    (c.Agree d ∧ ∀ i < 2, ¬ (c.steps i).PushesStatus) ∧
      (c.steps 2).Agree (d.steps 2) ∧ d.accesses 2 = c.accesses 2 ∧
      (c.steps 2).Agree (c.skipped.steps 1) := by
  intro c d
  have hagree : c.Agree d := ⟨⟨rfl, rfl, rfl, rfl, rfl, ⟨rfl, rfl, rfl, rfl⟩⟩, rfl, rfl, rfl⟩
  have hnext : ∀ i < 2, (c.steps i).mnemonic ≠ some .php ∧ (c.steps i).mnemonic ≠ some .brk := by
    decide +kernel
  have hquiet : ∀ i < 2, ¬ (c.steps i).PushesStatus := fun i hi hpushes =>
    hpushes.1.elim (hnext i hi).1 (hnext i hi).2
  obtain ⟨hstates, -, haccesses, hskipped⟩ := ignored_flags_have_no_effect hagree 2 hquiet
  refine ⟨⟨hagree, hquiet⟩, hstates 2 (Nat.le_refl 2), haccesses, ?_⟩
  exact hskipped 0 .sed rfl (by decide +kernel) rfl 1 (Nat.le_refl 2)

end Cpu

end Challenger1P
