import Challenger1P.Proofs.Memory.AddressMap
import Challenger1P.Proofs.Mos6502.Lockstep

/-!
# The memory map as flat memory

Where a program keeps away from the device and writes only where writes are stored (`Access.Flat`),
the memory map is 64 KiB of plain memory: it answers with the same bytes and comes to hold the same
bytes (`MemoryMap.Mirrors`). A program that keeps to this does on the one what it does on the other,
whichever of them it is watched on.

* `Mirrors.run`: one transaction.
* `Cpu.Mirrors.steps`: any number of steps of a processor.
* `Cpu.steps_withDevice`: meanwhile, it makes no difference which device there is.
-/

namespace Challenger1P

/-- An access that the memory map treats as plain memory does: it is not to the device, and what it
writes is stored. -/
structure Access.Flat (access : Access) : Prop where
  not_atDevice : ¬ AtDevice access.address
  writable : access.isWrite = true → Writable access.address

instance : DecidablePred Access.Flat := fun access =>
  decidable_of_iff (¬ AtDevice access.address ∧ (access.isWrite = true → Writable access.address))
    ⟨fun h => ⟨h.1, h.2⟩, fun h => ⟨h.not_atDevice, h.writable⟩⟩

namespace MemoryMap

variable {δ α : Type} [Device δ] {m : MemoryMap δ} {flat : Store}

omit [Device δ] in
/-- The plain memory holds the byte of the memory map at every address. -/
def Mirrors (m : MemoryMap δ) (flat : Store) : Prop :=
  ∀ address, flat.get address = m.store.get address

theorem Mirrors.read (h : m.Mirrors flat) {address : UInt16} (haway : ¬ AtDevice address) :
    Bus.read m address = ((Bus.read flat address).1, m) := by
  rw [read_of_ne_device (mt region_eq_device.1 haway), ← h address]
  rfl

theorem Mirrors.write (h : m.Mirrors flat) {address : UInt16} (hwritable : Writable address)
    (value : UInt8) : (Bus.write m address value).Mirrors (Bus.write flat address value) := by
  intro other
  show (flat.set address value).get other = _
  rw [get_write, Store.get_set, h other]
  simp only [hwritable, and_true]

/-- A transaction that is flat on one of the two comes to the same on both, by the same accesses. -/
theorem Mirrors.run (h : m.Mirrors flat) (t : Transaction α)
    (hflat : (∀ access ∈ t.accesses m, access.Flat) ∨ ∀ access ∈ t.accesses flat, access.Flat) :
    (t.run flat).1 = (t.run m).1 ∧ t.accesses flat = t.accesses m ∧
      (t.run m).2.Mirrors (t.run flat).2 := by
  induction t generalizing m flat with
  | done result => exact ⟨rfl, rfl, h⟩
  | read address next ih =>
    simp only [Transaction.accesses, List.forall_mem_cons] at hflat
    -- whether an access is flat does not depend on the byte, so either side tells of both
    have haway : ¬ AtDevice address :=
      hflat.elim (fun hm => hm.1.not_atDevice) fun hs => hs.1.not_atDevice
    have hread := h.read haway
    rw [hread] at hflat
    simp only [Transaction.run, Transaction.accesses, hread]
    obtain ⟨hresult, haccesses, hafter⟩ :=
      ih (Bus.read flat address).1 h (hflat.imp And.right And.right)
    exact ⟨hresult, congrArg _ haccesses, hafter⟩
  | write address value next ih =>
    simp only [Transaction.accesses, List.forall_mem_cons] at hflat
    have hwritable : Writable address :=
      hflat.elim (fun hm => hm.1.writable rfl) fun hs => hs.1.writable rfl
    obtain ⟨hresult, haccesses, hafter⟩ :=
      ih (h.write hwritable value) (hflat.imp And.right And.right)
    exact ⟨hresult, congrArg _ haccesses, hafter⟩

/-- A transaction that keeps away from the device leaves it as it was. -/
theorem device_run (t : Transaction α) (m : MemoryMap δ)
    (haway : ∀ access ∈ t.accesses m, ¬ AtDevice access.address) :
    (t.run m).2.device = m.device := by
  induction t generalizing m with
  | done result => rfl
  | read address next ih =>
    simp only [Transaction.accesses, List.forall_mem_cons] at haway
    obtain ⟨hfirst, hrest⟩ := haway
    rw [Transaction.run, ih _ _ hrest, device_read]
    exact if_neg hfirst
  | write address value next ih =>
    simp only [Transaction.accesses, List.forall_mem_cons] at haway
    obtain ⟨hfirst, hrest⟩ := haway
    rw [Transaction.run, ih _ hrest, device_write]
    exact if_neg hfirst

end MemoryMap

namespace Cpu

variable {δ : Type} [Device δ] {c : Cpu (MemoryMap δ)} {d : Cpu Store}

omit [Device δ] in
/-- The processor on plain memory is in the same state, and its memory holds the same bytes. -/
structure Mirrors (c : Cpu (MemoryMap δ)) (d : Cpu Store) : Prop extends c.InStep d where
  bus : c.bus.Mirrors d.bus

theorem Mirrors.step (h : c.Mirrors d)
    (hflat : (∀ access ∈ c.accesses 1, access.Flat) ∨ ∀ access ∈ d.accesses 1, access.Flat) :
    c.step.Mirrors d.step ∧ d.accesses 1 = c.accesses 1 := by
  have hrun (hstop : c.stop = none) :
      (c.registers.instruction.run d.bus).1 = (c.registers.instruction.run c.bus).1 ∧
        d.accesses 1 = c.accesses 1 ∧
        (c.registers.instruction.run c.bus).2.Mirrors (c.registers.instruction.run d.bus).2 := by
    rw [accesses_one hstop, accesses_one (h.stop_eq.trans hstop), h.registers_eq] at hflat ⊢
    exact h.bus.run _ hflat
  have hafter : c.step.Mirrors d.step :=
    { h.toInStep.step fun hstop => (hrun hstop).1 with
      bus := h.toInStep.bus_step h.bus fun hstop => (hrun hstop).2.2 }
  refine ⟨hafter, ?_⟩
  cases hstop : c.stop with
  | some stop =>
    rw [accesses_of_stopped (c := c) (by simp [hstop]),
      accesses_of_stopped (by simp [h.stop_eq, hstop])]
  | none => exact (hrun hstop).2.1

theorem Mirrors.steps (h : c.Mirrors d) {count : Nat}
    (hflat : (∀ access ∈ c.accesses count, access.Flat) ∨
      ∀ access ∈ d.accesses count, access.Flat) :
    (c.steps count).Mirrors (d.steps count) ∧ d.accesses count = c.accesses count := by
  induction count generalizing c d with
  | zero => exact ⟨h, rfl⟩
  | succ count ih =>
    rw [accesses_succ count c, accesses_succ count d] at hflat ⊢
    simp only [List.forall_mem_append] at hflat
    obtain ⟨hstep, hfirst⟩ := h.step (hflat.imp And.left And.left)
    obtain ⟨hsteps, hrest⟩ := ih hstep (hflat.imp And.right And.right)
    exact ⟨hsteps, by rw [hfirst, hrest]⟩

/-- A processor that keeps away from the device leaves it as it was. -/
theorem device_steps {count : Nat} (c : Cpu (MemoryMap δ))
    (haway : ∀ access ∈ c.accesses count, ¬ AtDevice access.address) :
    (c.steps count).bus.device = c.bus.device := by
  induction count generalizing c with
  | zero => rfl
  | succ count ih =>
    rw [accesses_succ, List.forall_mem_append] at haway
    rw [steps, ih _ haway.2]
    cases hstop : c.stop with
    | some stop => rw [step_of_stopped (by simp [hstop])]
    | none =>
      rw [accesses_one hstop] at haway
      rw [bus_step hstop, MemoryMap.device_run _ _ haway.1]

omit [Device δ] in
/-- The same processor and memory with another device. -/
def withDevice {ε : Type} (c : Cpu (MemoryMap δ)) (device : ε) : Cpu (MemoryMap ε) :=
  { registers := c.registers, cycles := c.cycles, stop := c.stop
    bus := { store := c.bus.store, screenWritten := c.bus.screenWritten, device } }

omit [Device δ] in
theorem Mirrors.withDevice {ε : Type} (h : c.Mirrors d) (device : ε) :
    (c.withDevice device).Mirrors d :=
  { registers_eq := h.registers_eq, cycles_eq := h.cycles_eq, stop_eq := h.stop_eq
    bus := h.bus }

omit [Device δ] in
/-- Processors that mirror the same plain memory are the same but for the device, if they agree on
whether the screen was written. -/
theorem Mirrors.eq_withDevice {ε : Type} {e : Cpu (MemoryMap ε)} (h : c.Mirrors d)
    (h' : e.Mirrors d) (hscreen : e.bus.screenWritten = c.bus.screenWritten) :
    e = c.withDevice e.bus.device := by
  obtain ⟨registers, cycles, ⟨store, written, device⟩, stop⟩ := c
  obtain ⟨registers', cycles', ⟨store', written', device'⟩, stop'⟩ := e
  obtain rfl : registers = registers' := h.registers_eq.symm.trans h'.registers_eq
  obtain rfl : cycles = cycles' := h.cycles_eq.symm.trans h'.cycles_eq
  obtain rfl : stop = stop' := h.stop_eq.symm.trans h'.stop_eq
  obtain rfl : written' = written := hscreen
  obtain rfl : store = store' :=
    Store.ext_get fun address => (h.bus address).symm.trans (h'.bus address)
  rfl

/-- While a program keeps to plain memory, it makes no difference which device there is. -/
theorem steps_withDevice {ε : Type} [Device ε] (h : c.Mirrors d) {count : Nat}
    (hflat : ∀ access ∈ d.accesses count, access.Flat) (device : ε) :
    (c.withDevice device).steps count = (c.steps count).withDevice device := by
  obtain ⟨hc, hcaccesses⟩ := h.steps (Or.inr hflat)
  obtain ⟨he, heaccesses⟩ := (h.withDevice device).steps (Or.inr hflat)
  have hscreen : ((c.withDevice device).steps count).bus.screenWritten =
      (c.steps count).bus.screenWritten := by
    rw [screenWritten_steps, screenWritten_steps, ← heaccesses, ← hcaccesses]
    rfl
  rw [hc.eq_withDevice he hscreen,
    device_steps _ fun access hmem => (hflat access (heaccesses ▸ hmem)).not_atDevice]
  rfl

/-- As long as no access is to the device and all writes are stored, be it on the one side or on the
other, a processor on the memory map and one on plain memory that start alike stay alike, and make
the same accesses. The device is not asked anything: it stays as it was, and so does any other in
its place, such as one that keeps a list of what it is asked. The screen counts as written if it did
before or one of the writes was to video RAM. -/
theorem memory_map_simulates_flat_memory (h : c.Mirrors d) (count : Nat)
    (hflat : (∀ access ∈ c.accesses count, access.Flat) ∨
      ∀ access ∈ d.accesses count, access.Flat) :
    (c.steps count).Mirrors (d.steps count) ∧
      (d.steps count).halted = (c.steps count).halted ∧
      (d.steps count).fault = (c.steps count).fault ∧
      d.accesses count = c.accesses count ∧
      (c.steps count).bus.device = c.bus.device ∧
      (∀ (ε : Type) [Device ε] (device : ε),
        (c.withDevice device).steps count = (c.steps count).withDevice device) ∧
      ((c.steps count).bus.screenWritten = true ↔ c.bus.screenWritten = true ∨
        ∃ access ∈ c.accesses count, access.isWrite = true ∧
          0xD000 ≤ access.address ∧ access.address < 0xD800) := by
  obtain ⟨hmirrors, haccesses⟩ := h.steps hflat
  have hflat' : ∀ access ∈ c.accesses count, access.Flat :=
    hflat.elim id fun hd => haccesses ▸ hd
  refine ⟨hmirrors, hmirrors.halted_eq, hmirrors.fault_eq, haccesses,
    device_steps c fun access hmem => (hflat' access hmem).not_atDevice,
    fun ε _ device => steps_withDevice h (haccesses ▸ hflat') device, ?_⟩
  rw [screenWritten_steps, Bool.or_eq_true, List.any_eq_true]
  simp only [Access.hitsScreen, Bool.and_eq_true, decide_eq_true_eq]

/-- A program that writes to the last byte of video RAM and counts up a byte of RAM. -/
theorem memory_map_simulates_flat_memory_at_the_edge :
    let store := Store.blank.load 0x0200 [0xA9, 0x41, 0x8D, 0xFF, 0xD7, 0xE6, 0x10]
    let c : Cpu (MemoryMap CallLog) :=
      { registers := { pc := 0x0200 }, bus := { store, device := {} } }
    let d : Cpu Store := { registers := { pc := 0x0200 }, bus := store }
    c.Mirrors d ∧ (∀ access ∈ c.accesses 3, access.Flat) ∧
      (c.steps 3).bus.device.asked = [] ∧ (c.steps 3).bus.screenWritten = true ∧
      (c.steps 3).bus.store.get 0xD7FF = 0x41 ∧ (c.steps 3).bus.store.get 0x0010 = 1 := by
  intro store c d
  have halike : c.Mirrors d :=
    { registers_eq := rfl, cycles_eq := rfl, stop_eq := rfl, bus := fun _ => rfl }
  have hflat : ∀ access ∈ c.accesses 3, access.Flat := by decide +kernel
  obtain ⟨hmirrors, -, -, -, hdevice, -, hscreen⟩ :=
    memory_map_simulates_flat_memory halike 3 (Or.inl hflat)
  have hwritten : ∃ access ∈ c.accesses 3, access.isWrite = true ∧
      0xD000 ≤ access.address ∧ access.address < 0xD800 := by decide +kernel
  have hlast : (d.steps 3).bus.get 0xD7FF = 0x41 := by decide +kernel
  have hcount : (d.steps 3).bus.get 0x0010 = 1 := by decide +kernel
  exact ⟨halike, hflat, by rw [hdevice], hscreen.2 (Or.inr hwritten),
    (hmirrors.bus _).symm.trans hlast, (hmirrors.bus _).symm.trans hcount⟩

end Cpu

end Challenger1P
