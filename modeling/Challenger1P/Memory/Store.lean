import Challenger1P.Bus.Basic

/-!
# The store

64 KiB of bytes, kept as 256 pages of 256 so that a byte is found and replaced in constant time.
On its own a store is the simplest bus there is: every address is plain memory.

`get_set` is the one law that the rest rests on; `get_load` says what a block copied in leaves at
each address.
-/

namespace Challenger1P

/-- 256 consecutive bytes. -/
abbrev Page := Vector UInt8 256

/-- A byte for each of the 65536 addresses. -/
structure Store where
  pages : Vector Page 256

namespace Store

def blankPage : Page := Vector.replicate 256 0

/-- All zeros. -/
def blank : Store := ⟨Vector.replicate 256 blankPage⟩

instance : Inhabited Store := ⟨blank⟩

theorem page_lt (address : UInt16) : address.toNat / 256 < 256 := by
  have := address.toNat_lt
  omega

theorem offset_lt (address : UInt16) : address.toNat % 256 < 256 := Nat.mod_lt _ (by decide)

def get (s : Store) (address : UInt16) : UInt8 :=
  have := page_lt address
  have := offset_lt address
  (s.pages[address.toNat / 256])[address.toNat % 256]

/-- Replace the byte at an address. The page is taken out of the store while it changes, so that
it has one owner and is changed in place. -/
def set (s : Store) (address : UInt16) (value : UInt8) : Store :=
  have := page_lt address
  let page := s.pages[address.toNat / 256]
  let rest := s.pages.set (address.toNat / 256) blankPage (page_lt address)
  ⟨rest.set (address.toNat / 256) (page.set (address.toNat % 256) value (offset_lt address))
    (page_lt address)⟩

/-- Copy a block to consecutive addresses from `base` up. What would lie past the last address is
dropped. -/
def load (s : Store) (base : Nat) : List UInt8 → Store
  | [] => s
  | value :: rest =>
    if base < 0x10000 then (s.set (UInt16.ofNat base) value).load (base + 1) rest else s

/-- How many bytes of a block of this length `load` drops. -/
def dropped (base length : Nat) : Nat := length - (0x10000 - base)

@[simp] theorem get_blank (address : UInt16) : blank.get address = 0 := by
  simp [blank, blankPage, get]

theorem get_set (s : Store) (address other : UInt16) (value : UInt8) :
    (s.set address value).get other = if address = other then value else s.get other := by
  have h : address = other ↔
      address.toNat / 256 = other.toNat / 256 ∧ address.toNat % 256 = other.toNat % 256 := by
    rw [← UInt16.toNat_inj]
    omega
  simp only [set, get, Vector.getElem_set]
  by_cases hp : address.toNat / 256 = other.toNat / 256 <;>
    by_cases ho : address.toNat % 256 = other.toNat % 256 <;> simp [h, hp, ho]

@[simp] theorem get_set_self (s : Store) (address : UInt16) (value : UInt8) :
    (s.set address value).get address = value := by
  simp [get_set]

theorem get_set_of_ne {s : Store} {address other : UInt16} {value : UInt8}
    (h : address ≠ other) : (s.set address value).get other = s.get other := by
  simp [get_set, h]

/-- After a block is copied in, the addresses it covers hold its bytes and all others what they
held. -/
theorem get_load (s : Store) (base : Nat) (block : List UInt8) (address : UInt16) :
    (s.load base block).get address =
      if base ≤ address.toNat then (block[address.toNat - base]?).getD (s.get address)
      else s.get address := by
  induction block generalizing s base with
  | nil => simp [load]
  | cons value rest ih =>
    have hlt := address.toNat_lt
    rw [load]
    split
    · rename_i hbase
      rw [ih, get_set]
      have hof : UInt16.ofNat base = address ↔ base = address.toNat := by
        rw [← UInt16.toNat_inj, UInt16.toNat_ofNat']
        omega
      by_cases heq : base = address.toNat
      · have h1 : UInt16.ofNat base = address := hof.2 heq
        have h2 : ¬ base + 1 ≤ address.toNat := by omega
        have h3 : base ≤ address.toNat := by omega
        have h4 : address.toNat - base = 0 := by omega
        simp [h1, h2, h3, h4]
      · have h1 : UInt16.ofNat base ≠ address := fun h => heq (hof.1 h)
        by_cases hle : base ≤ address.toNat
        · have h2 : base + 1 ≤ address.toNat := by omega
          have h3 : address.toNat - base = address.toNat - (base + 1) + 1 := by omega
          simp [h1, h2, hle, h3]
        · have h2 : ¬ base + 1 ≤ address.toNat := by omega
          simp [h1, h2, hle]
    · have h1 : ¬ base ≤ address.toNat := by omega
      simp [h1]

/-- Two stores with the same bytes are the same store. -/
theorem ext_get {s t : Store} (h : ∀ address, s.get address = t.get address) : s = t := by
  have hpages : s.pages = t.pages := by
    refine Vector.ext fun i hi => Vector.ext fun j hj => ?_
    have hbyte := h (UInt16.ofNat (256 * i + j))
    have hdiv : (256 * i + j) % 65536 / 256 = i := by omega
    have hmod : (256 * i + j) % 256 = j := by omega
    simpa [get, hdiv, hmod] using hbyte
  cases s
  cases t
  simp_all

instance : Bus Store where
  read s address := (s.get address, s)
  write s address value := s.set address value

end Store

end Challenger1P
