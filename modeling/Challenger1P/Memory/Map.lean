import Challenger1P.Journal
import Challenger1P.Memory.Store
import Challenger1P.Text.Hex

/-!
# The memory map

What answers at each address of the machine: RAM up to `$7FFF`, video RAM at `$D000`, a
device at `$DF00`, which all of 256 addresses reach, and read-only memory
everywhere else. The map also notes whether video RAM was written since it was last asked to
forget.
-/

namespace Challenger1P

/-- A device with one 8-bit register. Reading may change it. -/
class Device (δ : Type) where
  read : δ → UInt8 × δ
  write : δ → UInt8 → δ

inductive Region where
  | ram
  | video
  /-- Reads and writes go to the device. -/
  | device
  /-- Writes are dropped. -/
  | readOnly
  deriving DecidableEq, Repr

def videoBase : UInt16 := 0xD000

/-- What is at an address. -/
def region (address : UInt16) : Region :=
  if address < 0x8000 then .ram
  else if 0xD000 ≤ address ∧ address < 0xD800 then .video
  else if 0xDF00 ≤ address ∧ address < 0xE000 then .device
  else .readOnly

/-- The contents of video RAM: 32 lines of 64 bytes. -/
abbrev Screen := Vector UInt8 2048

/-- The machine's memory, with a device in it. -/
structure MemoryMap (δ : Type) where
  store : Store := .blank
  /-- Video RAM was written since this was last cleared. -/
  screenWritten : Bool := false
  device : δ

namespace MemoryMap

variable {δ : Type}

def read [Device δ] (m : MemoryMap δ) (address : UInt16) : UInt8 × MemoryMap δ :=
  match region address with
  | .device =>
    match m with
    | { store, screenWritten, device } =>
      match Device.read device with
      | (value, device) => (value, { store, screenWritten, device })
  | _ => (m.store.get address, m)

def write [Device δ] (m : MemoryMap δ) (address : UInt16) (value : UInt8) : MemoryMap δ :=
  match m with
  | { store, screenWritten, device } =>
    match region address with
    | .ram => { store := store.set address value, screenWritten, device }
    | .video => { store := store.set address value, screenWritten := true, device }
    | .device => { store, screenWritten, device := Device.write device value }
    | .readOnly => { store, screenWritten, device }

instance [Device δ] : Bus (MemoryMap δ) where
  read := read
  write := write

/-- Copy a block into memory whatever is there, as a ROM is put into its socket. What would lie
past the last address is dropped. -/
def install (m : MemoryMap δ) (base : UInt16) (block : List UInt8) : MemoryMap δ :=
  match m with
  | { store, screenWritten, device } =>
    { store := store.load base.toNat block, screenWritten, device }

/-- What installing a block reports: how much of it was dropped, if any was. -/
def installRecords (base : UInt16) (block : List UInt8) : List Record :=
  let dropped := Store.dropped base.toNat block.length
  if dropped = 0 then []
  else
    let place := s!"{dropped} byte(s) at ${wordHex base}"
    [⟨.warning, s!"initialize_region: {place} run past $FFFF, truncated"⟩]

def clearScreenWritten (m : MemoryMap δ) : MemoryMap δ :=
  match m with
  | { store, device, .. } => { store, screenWritten := false, device }

/-- A copy of video RAM. -/
def screen (m : MemoryMap δ) : Screen :=
  Vector.ofFn fun i => m.store.get (videoBase + UInt16.ofNat i.val)

end MemoryMap

end Challenger1P
