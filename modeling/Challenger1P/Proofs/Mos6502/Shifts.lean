import Challenger1P.Keyboard.Matrix
import Challenger1P.Proofs.Memory.Map
import Challenger1P.Proofs.Mos6502.Numbers
import Challenger1P.Proofs.Mos6502.Perform
import Challenger1P.Mos6502.Cpu

/-!
# Shifting numbers in memory

A number of several bytes is shifted by shifting its first byte and rotating the others, one after
the other: what falls out of each byte goes through the carry flag into the next. The bytes may be
anywhere in plain memory (`PlainMemory`), as long as they are different ones.

* `executeAll_modify`: instructions of one kind on such bytes are a `chain` on what they hold.
* `number_rotateLeft`, `number_rotateRight`: what the chains do to the number. They undo each other.
-/

namespace Challenger1P

/-! ## Plain memory -/

/-- A bus on which some addresses are plain memory: there, reading has no effect, and writing puts
a byte into the store behind the bus. -/
class PlainMemory (β : Type) [Bus β] where
  /-- The address is plain memory. -/
  IsPlain : UInt16 → Prop
  store : β → Store
  /-- The bus with another store behind it. -/
  withStore : β → Store → β
  store_withStore (bus : β) (s : Store) : store (withStore bus s) = s
  withStore_store (bus : β) : withStore bus (store bus) = bus
  withStore_withStore (bus : β) (s t : Store) : withStore (withStore bus s) t = withStore bus t
  read_eq (bus : β) {address : UInt16} (h : IsPlain address) :
    Bus.read bus address = ((store bus).get address, bus)
  write_eq (bus : β) {address : UInt16} (h : IsPlain address) (value : UInt8) :
    Bus.write bus address value = withStore bus ((store bus).set address value)

instance : PlainMemory Store where
  IsPlain _ := True
  store s := s
  withStore _ s := s
  store_withStore _ _ := rfl
  withStore_store _ := rfl
  withStore_withStore _ _ _ := rfl
  read_eq _ _ _ := rfl
  write_eq _ _ _ _ := rfl

instance {δ : Type} [Device δ] : PlainMemory (MemoryMap δ) where
  IsPlain address := address < 0x8000
  store m := m.store
  withStore m store := { m with store }
  store_withStore _ _ := rfl
  withStore_store _ := rfl
  withStore_withStore _ _ _ := rfl
  read_eq m address h :=
    MemoryMap.read_of_ne_device (by rw [region_eq_ram.2 h]; exact Region.noConfusion)
  write_eq m address h value := by
    show m.write address value = _
    unfold MemoryMap.write
    rw [region_eq_ram.2 h]

namespace Alu

/-! ## Numbers rotated -/

theorem rotateLeft_of_clear (f : Flags) (value : UInt8) :
    rotateLeft { f with carry := false } value = shiftLeft f value := by
  rw [rotateLeft_eq, shiftLeft_eq]
  simp

theorem rotateRight_of_clear (f : Flags) (value : UInt8) :
    rotateRight { f with carry := false } value = shiftRight f value := by
  rw [rotateRight_eq, shiftRight_eq]
  simp

theorem toNat_rotateLeft (f : Flags) (value : UInt8) :
    (rotateLeft f value).1.toNat + 256 * (rotateLeft f value).2.carry.toNat =
      2 * value.toNat + f.carry.toNat := by
  have hlt := value.toNat_lt
  have hc := f.carry.toNat_le
  have hbyte := toNat_byte (2 * value.toNat + f.carry.toNat)
  rw [rotateLeft_eq]
  simp only [Flags.judgedBy, ← signBit_eq, signBit_eq_decide]
  by_cases h : 128 ≤ value.toNat
  · rw [decide_eq_true h, Bool.toNat_true]
    omega
  · rw [decide_eq_false h, Bool.toNat_false]
    omega

theorem toNat_rotateRight (f : Flags) (value : UInt8) :
    2 * (rotateRight f value).1.toNat + (rotateRight f value).2.carry.toNat =
      value.toNat + 256 * f.carry.toNat := by
  have hlt := value.toNat_lt
  have hc := f.carry.toNat_le
  have hbyte := toNat_byte (value.toNat / 2 + 128 * f.carry.toNat)
  rw [rotateRight_eq]
  simp only [Flags.judgedBy, bitOf, Nat.testBit_zero]
  by_cases h : value.toNat % 2 = 1
  · rw [decide_eq_true h, Bool.toNat_true]
    omega
  · rw [decide_eq_false h, Bool.toNat_false]
    omega

/-- Rotated to the left from the low byte up, a number is doubled. -/
theorem number_rotateLeft (f : Flags) (bytes : List UInt8) :
    number (chain rotateLeft f bytes).1 +
        256 ^ bytes.length * (chain rotateLeft f bytes).2.carry.toNat =
      2 * number bytes + f.carry.toNat := by
  have hsum := number_chain (fun value : UInt8 => 2 * value.toNat) toNat_rotateLeft f bytes
  rw [hsum, number, Nat.mul_ofDigits, List.map_map]
  rfl

/-- Rotated to the right from the high byte down, it is halved. -/
theorem number_rotateRight (f : Flags) (bytes : List UInt8) :
    2 * number (chain rotateRight f bytes).1.reverse +
        (chain rotateRight f bytes).2.carry.toNat =
      number bytes.reverse + 256 ^ bytes.length * f.carry.toNat := by
  induction bytes generalizing f with
  | nil => simp [chain]
  | cons high rest ih =>
    have hlink := congrArg (256 ^ rest.length * ·) (toNat_rotateRight f high)
    have hrest := ih (rotateRight f high).2
    rw [chain_cons, List.reverse_cons, List.reverse_cons, number_concat, number_concat,
      List.length_reverse, List.length_reverse, length_chain, List.length_cons, pow_succ]
    dsimp only
    linarith

/-- What a doubled number leaves in `n` bytes, and what falls out. -/
theorem doubled_of_eq {n x y : Nat} {carry : Bool} (hpos : 0 < n) (hx : x < 256 ^ n)
    (hy : y < 256 ^ n) (h : y + 256 ^ n * carry.toNat = 2 * x) :
    y = 2 * x % 256 ^ n ∧ carry = x.testBit (8 * n - 1) := by
  rw [testBit_top hpos hx, ← h, Nat.add_mul_mod_self_left, Nat.mod_eq_of_lt hy]
  cases carry <;> simp [hy]

/-- What is left of a halved number, and what falls out. -/
theorem halved_of_eq {x y : Nat} {carry : Bool} (h : 2 * y + carry.toNat = x) :
    y = x / 2 ∧ carry = x.testBit 0 := by
  rw [Nat.testBit_zero, ← h]
  cases carry <;> simp
  omega

theorem eq_of_doubled_eq {x y : Nat} {carry carry' : Bool}
    (h : 2 * y + carry.toNat = 2 * x + carry'.toNat) : y = x ∧ carry = carry' := by
  cases carry <;> cases carry' <;> simp at h ⊢ <;> omega

end Alu

/-- What changes its operand does nothing to the flags but to carry, zero and negative. -/
theorem Mnemonic.modify_keeps {mnemonic : Mnemonic} {f : Flags → UInt8 → UInt8 × Flags}
    (haction : mnemonic.action = .modify f) (flags : Flags) (value : UInt8) :
    (f flags value).2 = { flags with
      carry := (f flags value).2.carry
      zero := (f flags value).2.zero
      negative := (f flags value).2.negative } := by
  cases mnemonic <;> cases haction <;> rfl

namespace Cpu

/-! ## Instructions on bytes in memory -/

open PlainMemory

variable {β : Type} [Bus β]

/-- Execute instructions on operands in memory, one after the other, as long as none refuses. -/
def executeAll (c : Cpu β) : List (Mnemonic × UInt16) → Except Stop (Cpu β)
  | [] => .ok c
  | (mnemonic, address) :: rest =>
    match c.execute mnemonic (.address address) with
    | (.ok _, c) => c.executeAll rest
    | (.error stop, _) => .error stop

theorem executeAll_append_of_ok {c d : Cpu β} {before : List (Mnemonic × UInt16)}
    (h : c.executeAll before = .ok d) (after : List (Mnemonic × UInt16)) :
    c.executeAll (before ++ after) = d.executeAll after := by
  induction before generalizing c with
  | nil =>
    cases h
    rfl
  | cons item before ih =>
    rw [executeAll] at h
    rw [List.cons_append, executeAll]
    split at h
    · exact ih h
    · cases h

variable [PlainMemory β]

/-- The byte in memory at an address. -/
def memoryAt (c : Cpu β) (address : UInt16) : UInt8 := (store c.bus).get address

/-- `d` is `c` but for the bytes in memory at these addresses, and the flags for carry, zero and
negative. -/
structure Rewritten (c d : Cpu β) (addresses : List UInt16) : Prop where
  eq : d = { c with
    registers := { c.registers with
      flags := { c.registers.flags with
        carry := d.registers.flags.carry
        zero := d.registers.flags.zero
        negative := d.registers.flags.negative } }
    bus := withStore c.bus (store d.bus) }
  memoryAt_eq : ∀ address ∉ addresses, d.memoryAt address = c.memoryAt address

theorem Rewritten.refl (c : Cpu β) : c.Rewritten c [] := by
  refine ⟨?_, fun _ _ => rfl⟩
  rw [withStore_store]

theorem Rewritten.trans {c d e : Cpu β} {first second : List UInt16} (h : c.Rewritten d first)
    (h' : d.Rewritten e second) : c.Rewritten e (first ++ second) := by
  refine ⟨?_, fun address hout => ?_⟩
  · rw [h'.eq, h.eq]
    simp only [store_withStore, withStore_withStore]
  · rw [List.mem_append, not_or] at hout
    rw [h'.memoryAt_eq address hout.2, h.memoryAt_eq address hout.1]

theorem execute_modify {mnemonic : Mnemonic} {f : Flags → UInt8 → UInt8 × Flags}
    (haction : mnemonic.action = .modify f) (c : Cpu β) {address : UInt16}
    (hplain : IsPlain (β := β) address) :
    c.execute mnemonic (.address address) = (.ok 0, { c with
      registers := { c.registers with flags := (f c.registers.flags (c.memoryAt address)).2 }
      bus := withStore c.bus
        ((store c.bus).set address (f c.registers.flags (c.memoryAt address)).1) }) := by
  rw [execute, Registers.execute, haction, Registers.perform_modify, onBus]
  simp only [Transaction.run, read_eq c.bus hplain, write_eq c.bus hplain]
  rfl

/-- An instruction that changes a byte in memory changes this byte, and flags. -/
theorem exists_execute_modify {mnemonic : Mnemonic} {f : Flags → UInt8 → UInt8 × Flags}
    (haction : mnemonic.action = .modify f) (c : Cpu β) {address : UInt16}
    (hplain : IsPlain (β := β) address) :
    ∃ d, c.execute mnemonic (.address address) = (.ok 0, d) ∧ c.Rewritten d [address] ∧
      (d.memoryAt address, d.registers.flags) = f c.registers.flags (c.memoryAt address) := by
  refine ⟨_, execute_modify haction c hplain, ⟨?_, fun other hout => ?_⟩, ?_⟩
  · dsimp only
    rw [store_withStore, ← Mnemonic.modify_keeps haction]
  · rw [memoryAt, store_withStore, Store.get_set_of_ne (Ne.symm (mt List.mem_singleton.2 hout))]
    rfl
  · rw [memoryAt, store_withStore, Store.get_set_self]

/-- One after the other, instructions of one kind work on what is in memory as a chain. -/
theorem executeAll_modify {mnemonic : Mnemonic} {f : Flags → UInt8 → UInt8 × Flags}
    (haction : mnemonic.action = .modify f) (c : Cpu β) {addresses : List UInt16}
    (hplain : ∀ address ∈ addresses, IsPlain (β := β) address) (hnodup : addresses.Nodup) :
    ∃ d, c.executeAll (addresses.map (mnemonic, ·)) = .ok d ∧ c.Rewritten d addresses ∧
      (addresses.map d.memoryAt, d.registers.flags) =
        chain f c.registers.flags (addresses.map c.memoryAt) := by
  induction addresses generalizing c with
  | nil => exact ⟨c, rfl, .refl c, rfl⟩
  | cons address rest ih =>
    obtain ⟨hout, hrest⟩ := List.nodup_cons.1 hnodup
    obtain ⟨c', hfirst, hchanged, hlink⟩ :=
      exists_execute_modify haction c (hplain address List.mem_cons_self)
    obtain ⟨d, hrun, hchanged', hchain⟩ :=
      ih c' (fun address hmem => hplain address (List.mem_cons_of_mem _ hmem)) hrest
    refine ⟨d, ?_, hchanged.trans hchanged', ?_⟩
    · rw [List.map_cons, executeAll, hfirst]
      exact hrun
    · -- the addresses differ: the first instruction leaves the other bytes, and they leave its own
      have hbelow : rest.map c'.memoryAt = rest.map c.memoryAt :=
        List.map_congr_left fun other hother => hchanged.memoryAt_eq other
          (mt List.mem_singleton.1 fun heq => hout (heq ▸ hother))
      rw [List.map_cons, List.map_cons, chain_cons, hchanged'.memoryAt_eq address hout, ← hlink,
        ← hbelow, ← hchain]

/-! ## Shifts -/

/-- A first instruction on the first byte, and another on those after it. -/
def shifting (first next : Mnemonic) : List UInt16 → List (Mnemonic × UInt16)
  | [] => []
  | address :: rest => (first, address) :: rest.map (next, ·)

/-- The same processor with carry clear. -/
def cleared (c : Cpu β) : Cpu β :=
  { c with registers := { c.registers with flags := { c.registers.flags with carry := false } } }

theorem Rewritten.of_cleared {c d : Cpu β} {addresses : List UInt16}
    (h : c.cleared.Rewritten d addresses) : c.Rewritten d addresses := ⟨h.eq, h.memoryAt_eq⟩

/-- Bytes that are as they were need not be named. -/
theorem Rewritten.nothing {c d : Cpu β} {addresses : List UInt16} (h : c.Rewritten d addresses)
    (hsame : addresses.map d.memoryAt = addresses.map c.memoryAt) : c.Rewritten d [] := by
  refine ⟨h.eq, fun address _ => ?_⟩
  by_cases hmem : address ∈ addresses
  · exact List.map_inj_left.1 hsame address hmem
  · exact h.memoryAt_eq address hmem

/-- A shift is a rotation with carry clear. -/
theorem executeAll_shifting {shift rotate : Mnemonic} {f g : Flags → UInt8 → UInt8 × Flags}
    (hshift : shift.action = .modify f) (hrotate : rotate.action = .modify g)
    (hclear : ∀ flags value, g { flags with carry := false } value = f flags value) (c : Cpu β)
    {addresses : List UInt16} (hne : addresses ≠ [])
    (hplain : ∀ address ∈ addresses, IsPlain (β := β) address) :
    c.executeAll (shifting shift rotate addresses) =
      c.cleared.executeAll (addresses.map (rotate, ·)) := by
  obtain ⟨address, rest, rfl⟩ := List.exists_cons_of_ne_nil hne
  have hfirst := hplain address List.mem_cons_self
  rw [shifting, List.map_cons, executeAll, executeAll, execute_modify hshift c hfirst,
    execute_modify hrotate c.cleared hfirst, ← hclear]
  rfl

variable (c : Cpu β) {addresses : List UInt16}

theorem exists_rotateLeft (hplain : ∀ address ∈ addresses, IsPlain (β := β) address)
    (hnodup : addresses.Nodup) :
    ∃ d, c.executeAll (addresses.map (.rol, ·)) = .ok d ∧ c.Rewritten d addresses ∧
      number (addresses.map d.memoryAt) +
          256 ^ addresses.length * d.registers.flags.carry.toNat =
        2 * number (addresses.map c.memoryAt) + c.registers.flags.carry.toNat := by
  obtain ⟨d, hrun, hchanged, hchain⟩ :=
    executeAll_modify (show Mnemonic.rol.action = .modify Alu.rotateLeft from rfl) c hplain hnodup
  refine ⟨d, hrun, hchanged, ?_⟩
  have hsum := Alu.number_rotateLeft c.registers.flags (addresses.map c.memoryAt)
  rwa [← hchain, List.length_map] at hsum

theorem exists_rotateRight (hplain : ∀ address ∈ addresses, IsPlain (β := β) address)
    (hnodup : addresses.Nodup) :
    ∃ d, c.executeAll (addresses.reverse.map (.ror, ·)) = .ok d ∧ c.Rewritten d addresses ∧
      2 * number (addresses.map d.memoryAt) + d.registers.flags.carry.toNat =
        number (addresses.map c.memoryAt) +
          256 ^ addresses.length * c.registers.flags.carry.toNat := by
  obtain ⟨d, hrun, hchanged, hchain⟩ :=
    executeAll_modify (show Mnemonic.ror.action = .modify Alu.rotateRight from rfl) c
      (fun address hmem => hplain address (List.mem_reverse.1 hmem)) (List.nodup_reverse.2 hnodup)
  refine ⟨d, hrun, ⟨hchanged.eq, fun address hout => ?_⟩, ?_⟩
  · exact hchanged.memoryAt_eq address (mt List.mem_reverse.1 hout)
  · have hsum := Alu.number_rotateRight c.registers.flags (addresses.reverse.map c.memoryAt)
    rwa [← hchain, List.length_map, List.length_reverse, ← List.map_reverse, ← List.map_reverse,
      List.reverse_reverse] at hsum

/-- Shifted to the left from the low byte up, the number at any addresses in plain memory is
doubled, and its top bit is in the carry flag. Shifted to the right from the high byte down, it is
halved, and its low bit is there. Rotated to the left and back, it is what it was, and so is the
carry flag. Nothing else changes but the flags for zero and negative. -/
theorem shift_chains_are_exact_and_inverse (hne : addresses ≠ [])
    (hplain : ∀ address ∈ addresses, IsPlain (β := β) address) (hnodup : addresses.Nodup) :
    (∃ d, c.executeAll (shifting .asl .rol addresses) = .ok d ∧ c.Rewritten d addresses ∧
        number (addresses.map d.memoryAt) =
          2 * number (addresses.map c.memoryAt) % 256 ^ addresses.length ∧
        d.registers.flags.carry =
          (number (addresses.map c.memoryAt)).testBit (8 * addresses.length - 1)) ∧
      (∃ d, c.executeAll (shifting .lsr .ror addresses.reverse) = .ok d ∧
        c.Rewritten d addresses ∧
        number (addresses.map d.memoryAt) = number (addresses.map c.memoryAt) / 2 ∧
        d.registers.flags.carry = (number (addresses.map c.memoryAt)).testBit 0) ∧
      ∃ d, c.executeAll (addresses.map (.rol, ·) ++ addresses.reverse.map (.ror, ·)) = .ok d ∧
        c.Rewritten d [] ∧ d.registers.flags.carry = c.registers.flags.carry := by
  have hfits (d : Cpu β) : number (addresses.map d.memoryAt) < 256 ^ addresses.length := by
    simpa only [List.length_map] using number_lt (addresses.map d.memoryAt)
  have hpos : 0 < addresses.length := List.length_pos_iff.2 hne
  refine ⟨?_, ?_, ?_⟩
  · obtain ⟨d, hrun, hchanged, hsum⟩ := exists_rotateLeft c.cleared hplain hnodup
    rw [← executeAll_shifting (show Mnemonic.asl.action = .modify _ from rfl) rfl
      Alu.rotateLeft_of_clear c hne hplain] at hrun
    exact ⟨d, hrun, hchanged.of_cleared, Alu.doubled_of_eq hpos (hfits c) (hfits d) hsum⟩
  · obtain ⟨d, hrun, hchanged, hsum⟩ := exists_rotateRight c.cleared hplain hnodup
    rw [← executeAll_shifting (show Mnemonic.lsr.action = .modify _ from rfl) rfl
      Alu.rotateRight_of_clear c (mt List.reverse_eq_nil_iff.1 hne)
      fun address hmem => hplain address (List.mem_reverse.1 hmem)] at hrun
    exact ⟨d, hrun, hchanged.of_cleared, Alu.halved_of_eq hsum⟩
  · obtain ⟨d, hrun, hchanged, hsum⟩ := exists_rotateLeft c hplain hnodup
    obtain ⟨e, hrun', hchanged', hsum'⟩ := exists_rotateRight d hplain hnodup
    -- twice the number and the carry, which is what the rotation to the left made of them
    rw [hsum] at hsum'
    obtain ⟨hnumber, hcarry⟩ := Alu.eq_of_doubled_eq hsum'
    have hbytes : addresses.map e.memoryAt = addresses.map c.memoryAt :=
      eq_of_number_eq (by rw [List.length_map, List.length_map]) hnumber
    exact ⟨e, (executeAll_append_of_ok hrun _).trans hrun',
      (hchanged.trans hchanged').nothing (by rw [List.map_append, List.map_append, hbytes]), hcarry⟩

/-- A number whose low byte is the last of RAM and whose high byte is the first. -/
theorem shift_chains_are_exact_and_inverse_around_ram :
    let bus : MemoryMap Keyboard :=
      { store := (Store.blank.set 0x7FFF 0x81).set 0 0x80, device := {} }
    let c : Cpu (MemoryMap Keyboard) := { registers := { flags := { carry := true } }, bus }
    let addresses : List UInt16 := [0x7FFF, 0]
    (addresses ≠ [] ∧ (∀ address ∈ addresses, address < 0x8000) ∧ addresses.Nodup) ∧
      number (addresses.map c.memoryAt) = 0x8081 ∧
      (∃ d, c.executeAll [(.asl, 0x7FFF), (.rol, 0)] = .ok d ∧
        number (addresses.map d.memoryAt) = 0x0102 ∧ d.registers.flags.carry = true) ∧
      ∃ d, c.executeAll [(.rol, 0x7FFF), (.rol, 0), (.ror, 0), (.ror, 0x7FFF)] = .ok d ∧
        c.Rewritten d [] ∧ d.registers.flags.carry = true := by
  intro bus c addresses
  have hplain : ∀ address ∈ addresses, address < 0x8000 :=
    List.forall_mem_cons.2 ⟨by decide, List.forall_mem_singleton.2 (by decide)⟩
  have hnodup : addresses.Nodup := by decide
  have hnumber : number (addresses.map c.memoryAt) = 0x8081 := by decide +kernel
  obtain ⟨⟨d, hleft, -, hdoubled, hcarry⟩, -, hback⟩ :=
    shift_chains_are_exact_and_inverse c (List.cons_ne_nil _ _) hplain hnodup
  refine ⟨⟨List.cons_ne_nil _ _, hplain, hnodup⟩, hnumber, ⟨d, hleft, ?_, ?_⟩, hback⟩
  · rw [hdoubled, hnumber]
    rfl
  · rw [hcarry, hnumber]
    decide

end Cpu

end Challenger1P
