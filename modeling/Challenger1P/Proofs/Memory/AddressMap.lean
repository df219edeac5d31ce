import Mathlib.Data.List.Induction
import Challenger1P.Proofs.Memory.Screen
import Challenger1P.Proofs.Since

/-!
# What a memory map remembers

A memory map that began blank is told by its history. Each of its bytes is the last one that was
stored there, each call to its device is a read or a write at one of the device's addresses, and the
note that the screen was written goes back to a write since it was last cleared (`Follows`).

* `get_call`, `device_call`, `screenWritten_call`: what one call does to each of the three.
* `get_calls`, `device_calls`, `screenWritten_calls`: what a history makes of them.
* `installChecked_eq`: copying a block stays within the memory and the block.
-/

namespace Challenger1P

/-- What can be asked of a device. -/
inductive DeviceCall where
  | read
  | write (value : UInt8)
  deriving DecidableEq, Repr

/-- What a call leaves of a device. -/
def DeviceCall.apply {δ : Type} [Device δ] (device : δ) : DeviceCall → δ
  | .read => (Device.read device).2
  | .write value => Device.write device value

/-- A device that keeps a list of what it is asked, oldest first, and answers zero. -/
structure CallLog where
  asked : List DeviceCall := []
  deriving DecidableEq, Repr

instance : Device CallLog where
  read log := (0, ⟨log.asked ++ [.read]⟩)
  write log value := ⟨log.asked ++ [.write value]⟩

theorem asked_foldl_apply (log : CallLog) (list : List DeviceCall) :
    (list.foldl DeviceCall.apply log).asked = log.asked ++ list := by
  induction list generalizing log with
  | nil => simp
  | cons k rest ih =>
    rw [List.foldl_cons, ih]
    cases k <;> exact List.append_assoc ..

/-- What can be done with a memory map. -/
inductive MemoryCall where
  | read (address : UInt16)
  | write (address : UInt16) (value : UInt8)
  | install (base : UInt16) (block : List UInt8)
  /-- Forget that video RAM was written. -/
  | clear
  deriving DecidableEq, Repr

namespace MemoryCall

/-- The byte that a call stores at an address, if it stores one there. -/
def stored? (address : UInt16) : MemoryCall → Option UInt8
  | .write target value => if target = address ∧ Writable target then some value else none
  | .install base block => if base ≤ address then block[address.toNat - base.toNat]? else none
  | .read _ | .clear => none

/-- What a call asks of the device, if it reaches it. -/
def toDevice? : MemoryCall → Option DeviceCall
  | .read address => if AtDevice address then some .read else none
  | .write address value => if AtDevice address then some (.write value) else none
  | .install _ _ | .clear => none

/-- A call that writes to video RAM, whatever was there before. -/
def HitsScreen : MemoryCall → Prop
  | .write address _ => 0xD000 ≤ address ∧ address < 0xD800
  | .read _ | .install _ _ | .clear => False

end MemoryCall

/-- The byte that was stored last at an address, zero if there was none. -/
def lastStored (calls : List MemoryCall) (address : UInt16) : UInt8 :=
  (calls.filterMap (·.stored? address)).getLastD 0

/-- Video RAM was written by one of the calls, and the note of it not cleared since. -/
def WrittenSinceCleared (calls : List MemoryCall) : Prop :=
  ∃ before call after, calls = before ++ call :: after ∧ call.HitsScreen ∧ .clear ∉ after

theorem writtenSinceCleared_iff {calls : List MemoryCall} :
    WrittenSinceCleared calls ↔ Since MemoryCall.HitsScreen (· ≠ .clear) calls := by
  simp only [WrittenSinceCleared, Since, List.forall_mem_ne']

namespace MemoryMap

variable {δ : Type} [Device δ]

/-- The memory map after one call. -/
def call (m : MemoryMap δ) : MemoryCall → MemoryMap δ
  | .read address => (Bus.read m address).2
  | .write address value => Bus.write m address value
  | .install base block => m.install base block
  | .clear => m.clearScreenWritten

/-- The memory map after one call and another. -/
def calls (m : MemoryMap δ) (list : List MemoryCall) : MemoryMap δ := list.foldl call m

theorem calls_append_singleton (m : MemoryMap δ) (list : List MemoryCall) (k : MemoryCall) :
    m.calls (list ++ [k]) = (m.calls list).call k := List.foldl_append ..

/-! ## The bytes -/

theorem get_call (m : MemoryMap δ) (k : MemoryCall) (address : UInt16) :
    (m.call k).store.get address = (k.stored? address).getD (m.store.get address) := by
  cases k with
  | read target =>
    rw [call, store_read]
    rfl
  | write target value =>
    rw [call, get_write, MemoryCall.stored?]
    split <;> rfl
  | install base block =>
    rw [call, get_install, MemoryCall.stored?]
    split <;> rfl
  | clear => rfl

theorem get_calls (m : MemoryMap δ) (list : List MemoryCall) (address : UInt16) :
    (m.calls list).store.get address =
      (list.filterMap (·.stored? address)).getLastD (m.store.get address) := by
  induction list generalizing m with
  | nil => rfl
  | cons k rest ih =>
    rw [calls, List.foldl_cons, ← calls, ih, get_call, List.filterMap_cons]
    cases k.stored? address with
    | none => rfl
    | some value => rw [Option.getD_some, List.getLastD_cons]

/-! ## The device -/

theorem device_call (m : MemoryMap δ) (k : MemoryCall) :
    (m.call k).device = k.toDevice?.elim m.device (DeviceCall.apply m.device) := by
  cases k with
  | read address =>
    rw [call, device_read, MemoryCall.toDevice?]
    split <;> rfl
  | write address value =>
    rw [call, device_write, MemoryCall.toDevice?]
    split <;> rfl
  | install base block => rfl
  | clear => rfl

theorem device_calls (m : MemoryMap δ) (list : List MemoryCall) :
    (m.calls list).device =
      (list.filterMap MemoryCall.toDevice?).foldl DeviceCall.apply m.device := by
  induction list generalizing m with
  | nil => rfl
  | cons k rest ih =>
    rw [calls, List.foldl_cons, ← calls, ih, device_call, List.filterMap_cons]
    cases k.toDevice? <;> rfl

/-! ## The screen -/

theorem screenWritten_call (m : MemoryMap δ) (k : MemoryCall) :
    (m.call k).screenWritten = true ↔ k.HitsScreen ∨ k ≠ .clear ∧ m.screenWritten = true := by
  cases k with
  | read address => simp [call, screenWritten_read, MemoryCall.HitsScreen]
  | write address value =>
    rw [call, screenWritten_write, Bool.or_eq_true, or_comm, hitsScreen_write, beq_iff_eq,
      region_eq_video]
    simp [MemoryCall.HitsScreen]
  | install base block => simp [call, install, MemoryCall.HitsScreen]
  | clear => simp [call, clearScreenWritten, MemoryCall.HitsScreen]

theorem screenWritten_calls (device : δ) (list : List MemoryCall) :
    (({ device } : MemoryMap δ).calls list).screenWritten = true ↔ WrittenSinceCleared list := by
  induction list using List.reverseRecOn with
  | nil => exact iff_of_false Bool.false_ne_true (mt writtenSinceCleared_iff.1 not_since_nil)
  | append_singleton list k ih =>
    rw [calls_append_singleton, screenWritten_call, ih, writtenSinceCleared_iff,
      writtenSinceCleared_iff, since_append_singleton]

/-! ## Installing a block -/

omit [Device δ] in
/-- What would lie past the last address makes no difference. -/
theorem load_take (s : Store) (base : Nat) (block : List UInt8) :
    s.load base (block.take (0x10000 - base)) = s.load base block := by
  refine Store.ext_get fun address => ?_
  have hlt := address.toNat_lt
  rw [Store.get_load, Store.get_load]
  split
  · rw [List.getElem?_take_of_lt (by omega)]
  · rfl

/-- Install as much of a block as there is room for, cutting it off and putting it in place of as
many bytes with every range checked. There is no result if one is not in order, or not within what
it is a range of. -/
def installChecked (m : MemoryMap δ) (base : UInt16) (block : List UInt8) :
    Option (MemoryMap δ) :=
  let start := base.toNat
  let count := min block.length (0x10000 - start)
  if start ≤ 0x10000 ∧ count ≤ block.length ∧ start ≤ start + count ∧ start + count ≤ 0x10000 ∧
      (block.take count).length = start + count - start then
    some { m with store := m.store.load start (block.take count) }
  else none

/-- What becomes of a memory when a block is installed. -/
structure Installs (m : MemoryMap δ) (base : UInt16) (block : List UInt8) (after : MemoryMap δ) :
    Prop where
  /-- From the base on, up to the end of the block or of the memory, it holds the block. -/
  get_covered : ∀ address : UInt16, base.toNat ≤ address.toNat →
    address.toNat < min (base.toNat + block.length) 0x10000 →
    block[address.toNat - base.toNat]? = some (after.store.get address)
  /-- Elsewhere it holds what it held. -/
  get_uncovered : ∀ address : UInt16, ¬ (base.toNat ≤ address.toNat ∧
    address.toNat < min (base.toNat + block.length) 0x10000) →
    after.store.get address = m.store.get address
  screenWritten_eq : after.screenWritten = m.screenWritten
  device_eq : after.device = m.device

omit [Device δ] in
theorem installChecked_eq (m : MemoryMap δ) (base : UInt16) (block : List UInt8) :
    m.installChecked base block = some (m.install base block) := by
  have hlt := base.toNat_lt
  have hlength : (block.take (min block.length (0x10000 - base.toNat))).length =
      min block.length (0x10000 - base.toNat) := by
    rw [List.length_take]
    omega
  have hkept : block.take (min block.length (0x10000 - base.toNat)) =
      block.take (0x10000 - base.toNat) := by
    rw [Nat.min_comm, ← List.take_eq_take_min]
  rw [installChecked, if_pos (by omega), hkept, load_take]
  rfl

omit [Device δ] in
theorem installs_install (m : MemoryMap δ) (base : UInt16) (block : List UInt8) :
    m.Installs base block (m.install base block) where
  get_covered := by
    intro address hle hlt
    have hindex : address.toNat - base.toNat < block.length := by omega
    rw [get_install, if_pos (UInt16.le_iff_toNat_le.2 hle), List.getElem?_eq_getElem hindex,
      Option.getD_some]
  get_uncovered := by
    intro address houtside
    have hlt := address.toNat_lt
    rw [get_install]
    split
    · rename_i hle
      have hindex : block.length ≤ address.toNat - base.toNat := by
        have := UInt16.le_iff_toNat_le.1 hle
        omega
      rw [List.getElem?_eq_none hindex, Option.getD_none]
    · rfl
  screenWritten_eq := rfl
  device_eq := rfl

/-! ## The whole -/

/-- What is known of a memory map that began blank, with this device, by its history. -/
structure Follows (m : MemoryMap δ) (device : δ) (list : List MemoryCall) : Prop where
  /-- Away from the device, a read gives the byte that was stored last, and changes nothing. -/
  read_eq : ∀ address, ¬ AtDevice address → Bus.read m address = (lastStored list address, m)
  /-- At the device, it gives the device's answer. -/
  read_atDevice : ∀ address, AtDevice address → (Bus.read m address).1 = (Device.read m.device).1
  /-- Every byte is the one that was stored last, those behind the device too. -/
  get_eq : ∀ address, m.store.get address = lastStored list address
  /-- A write where nothing can be stored changes no byte anywhere. -/
  store_write : ∀ address value, ¬ Writable address → (Bus.write m address value).store = m.store
  /-- The device has been asked what was read and written at its addresses, in this order, and
  nothing else. -/
  device_eq : m.device = (list.filterMap MemoryCall.toDevice?).foldl DeviceCall.apply device
  screenWritten_iff : m.screenWritten = true ↔ WrittenSinceCleared list
  screen_eq : ∀ (i : Nat) (h : i < 2048),
    m.screen[i] = lastStored list (videoBase + UInt16.ofNat i)

theorem store_write_of_not_writable (m : MemoryMap δ) {address : UInt16} (value : UInt8)
    (h : ¬ Writable address) : (Bus.write m address value).store = m.store := by
  refine Store.ext_get fun other => ?_
  rw [get_write, if_neg fun hboth => h hboth.2]

theorem follows_calls (device : δ) (list : List MemoryCall) :
    (({ device } : MemoryMap δ).calls list).Follows device list := by
  have hget : ∀ address, (({ device } : MemoryMap δ).calls list).store.get address =
      lastStored list address := by
    intro address
    rw [get_calls, Store.get_blank]
    rfl
  exact {
    read_eq := fun address h => by
      rw [read_of_ne_device (mt region_eq_device.1 h), hget]
    read_atDevice := fun address h => read_fst_of_atDevice h
    get_eq := hget
    store_write := fun address value => store_write_of_not_writable _ value
    device_eq := device_calls _ list
    screenWritten_iff := screenWritten_calls device list
    screen_eq := fun i h => by rw [screen, Vector.getElem_ofFn, hget] }

/-- Whatever is done with a memory map that began blank, its history says what it holds, what its
device was asked and whether the screen was written; a device that keeps a list has listed just
that. A block that is installed, at any base and of any length, covers the addresses from its base
to its end or that of the memory and changes nothing else, and no range that is copied on the way
is out of bounds. -/
theorem memory_follows_its_history (device : δ) (list : List MemoryCall) :
    let m := ({ device } : MemoryMap δ).calls list
    m.Follows device list ∧
      (({ device := {} } : MemoryMap CallLog).calls list).device.asked =
        list.filterMap MemoryCall.toDevice? ∧
      ∀ base block, m.Installs base block (m.install base block) ∧
        m.installChecked base block = some (m.install base block) := by
  intro m
  refine ⟨follows_calls device list, ?_, fun base block =>
    ⟨installs_install m base block, installChecked_eq m base block⟩⟩
  rw [device_calls, asked_foldl_apply]
  rfl

-- `$9000` is read-only, and only the first byte of the second block has room
example :
    let list : List MemoryCall := [.install 0x8FFF [1, 2], .write 0x9000 3, .install 0xFFFF [4, 5]]
    lastStored list 0x9000 = 2 ∧ lastStored list 0xFFFF = 4 ∧ lastStored list 0x0000 = 0 := by
  decide

end MemoryMap

end Challenger1P
