import Challenger1P.Bus.Transaction
import Challenger1P.Memory.Map

/-!
# What happens to the stored bytes

Reading leaves all bytes alone, though it may change the device (`store_read`). Writing changes one
byte, and only in RAM and video RAM (`get_write`). So whatever is done on the bus leaves the rest of
the bytes as they are (`sameRom_run`). Installing a block changes the bytes it covers, wherever they
are, and nothing else (`get_install`).
-/

namespace Challenger1P

theorem region_eq_ram {address : UInt16} : region address = .ram ↔ address < 0x8000 := by
  unfold region
  split
  · rename_i hram
    simp [hram]
  · rename_i hram
    split
    · simp [hram]
    · split <;> simp [hram]

theorem region_eq_video {address : UInt16} :
    region address = .video ↔ 0xD000 ≤ address ∧ address < 0xD800 := by
  unfold region
  split
  · rename_i hram
    simp only [reduceCtorEq, false_iff, not_and, UInt16.not_lt]
    intro hle
    exact absurd (UInt16.lt_of_le_of_lt hle hram) (by decide)
  · split
    · rename_i hvideo
      simp [hvideo]
    · rename_i hvideo
      split <;> simp [hvideo]

/-- The addresses at which the device answers. -/
def AtDevice (address : UInt16) : Prop := 0xDF00 ≤ address ∧ address < 0xE000

instance : DecidablePred AtDevice := fun _ => inferInstanceAs (Decidable (_ ∧ _))

/-- The addresses at which the processor can store a byte: those of RAM and of video RAM. -/
def Writable (address : UInt16) : Prop :=
  address < 0x8000 ∨ 0xD000 ≤ address ∧ address < 0xD800

instance : DecidablePred Writable := fun _ => inferInstanceAs (Decidable (_ ∨ _))

theorem region_eq_device {address : UInt16} : region address = .device ↔ AtDevice address := by
  unfold region AtDevice
  simp only [UInt16.lt_iff_toNat_lt, UInt16.le_iff_toNat_le, UInt16.reduceToNat]
  split
  · simp only [reduceCtorEq, false_iff]
    omega
  · split
    · simp only [reduceCtorEq, false_iff]
      omega
    · split <;> simp_all

theorem writable_iff {address : UInt16} :
    Writable address ↔ region address = .ram ∨ region address = .video := by
  rw [region_eq_ram, region_eq_video, Writable]

namespace MemoryMap

variable {δ : Type} [Device δ]

theorem store_read (m : MemoryMap δ) (address : UInt16) :
    (Bus.read m address).2.store = m.store := by
  show (m.read address).2.store = m.store
  unfold read
  split <;> rfl

theorem read_of_ne_device {m : MemoryMap δ} {address : UInt16} (h : region address ≠ .device) :
    Bus.read m address = (m.store.get address, m) := by
  show m.read address = _
  unfold read
  split
  · contradiction
  · rfl

theorem read_fst_of_atDevice {m : MemoryMap δ} {address : UInt16} (h : AtDevice address) :
    (Bus.read m address).1 = (Device.read m.device).1 := by
  show (m.read address).1 = _
  unfold read
  rw [region_eq_device.2 h]

theorem get_write (m : MemoryMap δ) (address other : UInt16) (value : UInt8) :
    (Bus.write m address value).store.get other =
      if address = other ∧ Writable address then value else m.store.get other := by
  show (m.write address value).store.get other = _
  simp only [writable_iff]
  unfold write
  cases region address <;> simp [Store.get_set]

theorem device_write (m : MemoryMap δ) (address : UInt16) (value : UInt8) :
    (Bus.write m address value).device =
      if AtDevice address then Device.write m.device value else m.device := by
  show (m.write address value).device = _
  simp only [← region_eq_device]
  unfold write
  cases region address <;> simp

theorem device_read (m : MemoryMap δ) (address : UInt16) :
    (Bus.read m address).2.device =
      if AtDevice address then (Device.read m.device).2 else m.device := by
  show (m.read address).2.device = _
  simp only [← region_eq_device]
  unfold read
  cases region address <;> simp

omit [Device δ] in
/-- After a block is installed, the addresses it covers hold its bytes and all others what they
held. -/
theorem get_install (m : MemoryMap δ) (base : UInt16) (block : List UInt8) (address : UInt16) :
    (m.install base block).store.get address =
      if base ≤ address then (block[address.toNat - base.toNat]?).getD (m.store.get address)
      else m.store.get address := by
  show (m.store.load base.toNat block).get address = _
  rw [Store.get_load]
  simp only [UInt16.le_iff_toNat_le]

/-- The addresses that no write changes. Those of the device are among them: it is the device that
is written there, and the bytes behind it stay. -/
def InRom (address : UInt16) : Prop := 0x8000 ≤ address ∧ address < 0xD000 ∨ 0xD800 ≤ address

/-- The two memories hold the same bytes there. -/
def SameRom (m m' : MemoryMap δ) : Prop :=
  ∀ address, InRom address → m'.store.get address = m.store.get address

theorem inRom_iff {address : UInt16} : InRom address ↔ ¬ Writable address := by
  unfold InRom Writable
  simp only [UInt16.lt_iff_toNat_lt, UInt16.le_iff_toNat_le, UInt16.reduceToNat]
  omega

omit [Device δ] in
theorem SameRom.refl (m : MemoryMap δ) : m.SameRom m := fun _ _ => rfl

omit [Device δ] in
theorem SameRom.trans {m₁ m₂ m₃ : MemoryMap δ} (h : m₁.SameRom m₂) (h' : m₂.SameRom m₃) :
    m₁.SameRom m₃ := fun address hrom => (h' address hrom).trans (h address hrom)

theorem sameRom_read (m : MemoryMap δ) (address : UInt16) : m.SameRom (Bus.read m address).2 :=
  fun other _ => by rw [store_read]

theorem sameRom_write (m : MemoryMap δ) (address : UInt16) (value : UInt8) :
    m.SameRom (Bus.write m address value) := by
  intro other hrom
  rw [get_write, if_neg]
  rintro ⟨rfl, hwritable⟩
  exact inRom_iff.1 hrom hwritable

theorem sameRom_run {α : Type} (t : Transaction α) (m : MemoryMap δ) : m.SameRom (t.run m).2 :=
  t.run_induction (P := m.SameRom) (fun m' address h => h.trans (sameRom_read m' address))
    (fun m' address value h => h.trans (sameRom_write m' address value)) (SameRom.refl m)

end MemoryMap

end Challenger1P
