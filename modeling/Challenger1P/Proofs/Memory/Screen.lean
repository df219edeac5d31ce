import Challenger1P.Proofs.Bus.Recording
import Challenger1P.Proofs.Memory.Map

/-!
# What the bus does to video RAM

Video RAM changes by bus writes to `$D000` to `$D7FF` and by nothing else, and each of them sets
the memory's note that the screen was written: `screenWritten_run` and `screen_run` say so of a
transaction, `screenWritten_steps` and `screen_steps` of a processor's steps.
-/

namespace Challenger1P

/-- A write to video RAM, whatever was there before. -/
def Access.hitsScreen (access : Access) : Bool :=
  access.isWrite && decide (0xD000 ≤ access.address ∧ access.address < 0xD800)

@[simp] theorem hitsScreen_read (address : UInt16) (value : UInt8) :
    (Access.read address value).hitsScreen = false := rfl

theorem hitsScreen_write (address : UInt16) (value : UInt8) :
    (Access.write address value).hitsScreen = (region address == .video) := by
  rw [Bool.eq_iff_iff, beq_iff_eq, region_eq_video]
  exact decide_eq_true_iff

namespace MemoryMap

variable {δ α : Type} [Device δ]

theorem screenWritten_read (m : MemoryMap δ) (address : UInt16) :
    (Bus.read m address).2.screenWritten = m.screenWritten := by
  show (m.read address).2.screenWritten = m.screenWritten
  unfold read
  split <;> rfl

theorem screenWritten_write (m : MemoryMap δ) (address : UInt16) (value : UInt8) :
    (Bus.write m address value).screenWritten =
      (m.screenWritten || (Access.write address value).hitsScreen) := by
  show (m.write address value).screenWritten = _
  rw [hitsScreen_write]
  unfold write
  cases region address <;> simp

omit [Device δ] in
theorem screen_eq_of_store_eq {m m' : MemoryMap δ} (h : m.store = m'.store) :
    m.screen = m'.screen := by
  unfold screen
  rw [h]

omit [Device δ] in
/-- The screen is the bytes from `$D000` on. -/
theorem get_screen (m : MemoryMap δ) (i : Fin 2048) :
    m.screen.get i = m.store.get (0xD000 + UInt16.ofNat i) := Vector.getElem_ofFn i.isLt

/-- RAM ends far below video RAM. -/
theorem ne_of_region_eq_ram {address : UInt16} (h : region address = .ram) {i : Nat}
    (hi : i < 2048) : address ≠ videoBase + UInt16.ofNat i := by
  have hlt := region_eq_ram.1 h
  rw [UInt16.lt_iff_toNat_lt] at hlt
  intro heq
  have := congrArg UInt16.toNat heq
  rw [UInt16.toNat_add, UInt16.toNat_ofNat', show videoBase.toNat = 53248 from rfl] at this
  simp only [UInt16.reduceToNat] at hlt
  omega

theorem screen_write {m : MemoryMap δ} {address : UInt16} {value : UInt8}
    (h : (Access.write address value).hitsScreen = false) :
    (Bus.write m address value).screen = m.screen := by
  rw [hitsScreen_write, beq_eq_false_iff_ne] at h
  show (m.write address value).screen = m.screen
  unfold write
  cases hregion : region address with
  | ram =>
    simp only [screen]
    congr 1
    funext i
    exact Store.get_set_of_ne (ne_of_region_eq_ram hregion i.isLt)
  | video => exact absurd hregion h
  | device => rfl
  | readOnly => rfl

/-- The note says whether some write hit video RAM, since it was cleared. -/
theorem screenWritten_run (t : Transaction α) (m : MemoryMap δ) :
    (t.run m).2.screenWritten = (m.screenWritten || (t.accesses m).any Access.hitsScreen) := by
  induction t generalizing m with
  | done result => simp
  | read address next ih =>
    rw [Transaction.run, Transaction.accesses, ih, screenWritten_read, List.any_cons,
      hitsScreen_read, Bool.false_or]
  | write address value next ih =>
    rw [Transaction.run, Transaction.accesses, ih, screenWritten_write, List.any_cons,
      Bool.or_assoc]

/-- Video RAM is what it was unless some write hit it. -/
theorem screen_run {t : Transaction α} {m : MemoryMap δ}
    (h : (t.accesses m).any Access.hitsScreen = false) : (t.run m).2.screen = m.screen := by
  induction t generalizing m with
  | done result => rfl
  | read address next ih =>
    rw [Transaction.accesses, List.any_cons, Bool.or_eq_false_iff] at h
    rw [Transaction.run, ih _ h.2]
    exact screen_eq_of_store_eq (store_read m address)
  | write address value next ih =>
    rw [Transaction.accesses, List.any_cons, Bool.or_eq_false_iff] at h
    rw [Transaction.run, ih h.2]
    exact screen_write h.1

end MemoryMap

/-! ## Steps -/

namespace Cpu

variable {δ : Type} [Device δ] {c : Cpu (MemoryMap δ)}

theorem screenWritten_steps (count : Nat) (c : Cpu (MemoryMap δ)) :
    (c.steps count).bus.screenWritten =
      (c.bus.screenWritten || (c.accesses count).any Access.hitsScreen) := by
  induction count generalizing c with
  | zero => simp [steps, accesses]
  | succ count ih =>
    rw [steps, ih, accesses_succ, List.any_append, ← Bool.or_assoc]
    congr 1
    cases h : c.stop with
    | none => rw [bus_step h, accesses_one h, MemoryMap.screenWritten_run]
    | some stop =>
      have hstop : c.stop ≠ none := by simp [h]
      rw [step_of_stopped hstop, accesses_of_stopped hstop, List.any_nil, Bool.or_false]

theorem screen_steps {count : Nat} (h : (c.accesses count).any Access.hitsScreen = false) :
    (c.steps count).bus.screen = c.bus.screen := by
  induction count generalizing c with
  | zero => rfl
  | succ count ih =>
    rw [accesses_succ, List.any_append, Bool.or_eq_false_iff] at h
    rw [steps, ih h.2]
    cases hs : c.stop with
    | none =>
      rw [accesses_one hs] at h
      rw [bus_step hs, MemoryMap.screen_run h.1]
    | some stop => rw [step_of_stopped (by simp [hs])]

end Cpu

end Challenger1P
