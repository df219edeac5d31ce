import Challenger1P.Proofs.Memory.AddressMap
import Challenger1P.Rom.Image

/-!
# Where an image may be cut

An image can be cut out of its source if it ends neither past the end of memory nor past that of the
source. Both ends are sums that may have no room in 64 bits; but then they are past any memory and
any source, so the answer is the one that whole numbers give. And what was cut has room where it is
put: the memory holds all of it afterwards, and apart from that what it held (`Image.Placed`).

* `all_checkedSum?_iff`, `bind_slice?_eq`: the two checks in whole numbers.
* `cut_eq_ok_iff`, `cut_eq_error_iff`: what each answer says of the image.
* `Image.placed_install`: putting what was cut into memory.
-/

namespace Challenger1P.Rom

variable {a b start stop length limit : Nat} {raw block : List UInt8} {image : Image}

/-! ## The checks -/

theorem checkedSum?_of_lt (h : a + b < UInt64.size) : checkedSum? a b = some (a + b) := if_pos h

theorem checkedSum?_of_le (h : UInt64.size ≤ a + b) : checkedSum? a b = none :=
  if_neg (Nat.not_lt.2 h)

/-- A sum that has no room is past any limit that has. -/
theorem all_checkedSum?_iff (hlimit : limit < UInt64.size) :
    (checkedSum? a b).all (limit < ·) = true ↔ limit < a + b := by
  rcases Nat.lt_or_ge (a + b) UInt64.size with hroom | hfull
  · rw [checkedSum?_of_lt hroom, Option.all_some, decide_eq_true_iff]
  · rw [checkedSum?_of_le hfull, Option.all_none]
    exact iff_of_true rfl (Nat.lt_of_lt_of_le hlimit hfull)

/-- A range given by its start and its length is there if it ends within the source; one that has no
end in 64 bits is not. -/
theorem bind_slice?_eq (raw : List UInt8) (start length : Nat) :
    (checkedSum? start length).bind (slice? raw start) =
      if start + length < UInt64.size ∧ start + length ≤ raw.length then
        some ((raw.drop start).take length)
      else none := by
  rcases Nat.lt_or_ge (start + length) UInt64.size with hroom | hfull
  · have hordered : start ≤ start + length := Nat.le_add_right start length
    simp only [checkedSum?_of_lt hroom, Option.bind_some, slice?, hordered, hroom, true_and,
      Nat.add_sub_cancel_left]
  · rw [checkedSum?_of_le hfull, Option.bind_none, if_neg fun h => Nat.not_lt.2 hfull h.1]

/-- A range, byte by byte. -/
theorem eq_take_drop_iff (h : start + length ≤ raw.length) :
    block = (raw.drop start).take length ↔
      block.length = length ∧ ∀ i < length, block[i]? = raw[start + i]? := by
  constructor
  · rintro rfl
    refine ⟨?_, fun i hi => ?_⟩
    · rw [List.length_take, List.length_drop]
      omega
    · rw [List.getElem?_take_of_lt hi, List.getElem?_drop]
  · rintro ⟨hlength, hbytes⟩
    refine List.ext_getElem? fun i => ?_
    rcases Nat.lt_or_ge i length with hi | hi
    · rw [hbytes i hi, List.getElem?_take_of_lt hi, List.getElem?_drop]
    · rw [List.getElem?_eq_none (hlength ▸ hi), List.getElem?_take_eq_none hi]

/-! ## The answer -/

theorem cut_eq (image : Image) (raw : List UInt8) :
    image.cut raw =
      if 0x10000 < image.address.toNat + image.length then
        .error (.outOfRange image.name image.address image.length)
      else if image.offset + image.length < UInt64.size ∧
          image.offset + image.length ≤ raw.length then
        .ok ((raw.drop image.offset).take image.length)
      else .error (.truncated image.name image.offset image.length raw.length) := by
  have hmemory : 0x10000 < UInt64.size := by decide
  simp only [Image.cut, all_checkedSum?_iff hmemory, bind_slice?_eq]
  split
  · rfl
  · by_cases hwithin : image.offset + image.length < UInt64.size ∧
        image.offset + image.length ≤ raw.length
    · simp only [if_pos hwithin]
    · simp only [if_neg hwithin]

theorem cut_eq_ok_iff :
    image.cut raw = .ok block ↔
      image.address.toNat + image.length ≤ 0x10000 ∧
        image.offset + image.length < UInt64.size ∧ image.offset + image.length ≤ raw.length ∧
        block = (raw.drop image.offset).take image.length := by
  rw [cut_eq]
  split
  · rename_i houtside
    simp only [reduceCtorEq, false_iff, not_and]
    omega
  · rename_i hinside
    split
    · rename_i hlong
      simp only [Except.ok.injEq, Nat.not_lt.1 hinside, hlong, true_and, eq_comm]
    · rename_i hshort
      simp only [reduceCtorEq, false_iff, not_and] at hshort ⊢
      exact fun _ hroom hlong => absurd hlong (hshort hroom)

/-- The two errors, in the order in which they are looked for. -/
theorem cut_eq_error_iff {error : LoadError} (hraw : raw.length < UInt64.size) :
    image.cut raw = .error error ↔
      0x10000 < image.address.toNat + image.length ∧
        error = .outOfRange image.name image.address image.length ∨
      image.address.toNat + image.length ≤ 0x10000 ∧ raw.length < image.offset + image.length ∧
        error = .truncated image.name image.offset image.length raw.length := by
  rw [cut_eq]
  split
  · rename_i houtside
    simp only [Except.error.injEq, houtside, Nat.not_le.2 houtside, true_and, false_and, or_false,
      eq_comm]
  · rename_i hinside
    split
    · rename_i hlong
      simp only [reduceCtorEq, hinside, Nat.not_lt.2 hlong.2, false_and, and_false, or_self]
    · rename_i hshort
      have hlt : raw.length < image.offset + image.length := by omega
      simp only [Except.error.injEq, hinside, Nat.not_lt.1 hinside, hlt, true_and, false_and,
        false_or, eq_comm]

theorem fits_of_cut (h : image.cut raw = .ok block) :
    image.address.toNat + image.length ≤ 0x10000 := (cut_eq_ok_iff.1 h).1

theorem length_of_cut (h : image.cut raw = .ok block) : block.length = image.length := by
  obtain ⟨-, -, hlong, hblock⟩ := cut_eq_ok_iff.1 h
  exact ((eq_take_drop_iff hlong).1 hblock).1

theorem getElem?_of_cut (h : image.cut raw = .ok block) {i : Nat} (hi : i < image.length) :
    block[i]? = raw[image.offset + i]? := by
  obtain ⟨-, -, hlong, hblock⟩ := cut_eq_ok_iff.1 h
  exact ((eq_take_drop_iff hlong).1 hblock).2 i hi

/-! ## In memory -/

variable {δ : Type}

/-- What becomes of a memory into which an image is put as a whole. -/
structure Image.Placed (image : Image) (raw : List UInt8) (memory after : MemoryMap δ) :
    Prop where
  /-- There is an address for every byte of the image, and the byte is there. -/
  get_inside : ∀ i < image.length, ∃ address : UInt16,
    address.toNat = image.address.toNat + i ∧
      raw[image.offset + i]? = some (after.store.get address)
  /-- Below the image and above it, the memory holds what it held. -/
  get_outside : ∀ address : UInt16, address.toNat < image.address.toNat ∨
    image.address.toNat + image.length ≤ address.toNat →
    after.store.get address = memory.store.get address
  screenWritten_eq : after.screenWritten = memory.screenWritten
  device_eq : after.device = memory.device

theorem dropped_eq_zero_iff (base : UInt16) (length : Nat) :
    Store.dropped base.toNat length = 0 ↔ base.toNat + length ≤ 0x10000 := by
  have hlt := base.toNat_lt
  rw [Store.dropped]
  omega

theorem installRecords_of_cut (h : image.cut raw = .ok block) :
    MemoryMap.installRecords image.address block = [] := by
  refine if_pos ((dropped_eq_zero_iff image.address block.length).2 ?_)
  rw [length_of_cut h]
  exact fits_of_cut h

theorem get_install_of_cut (h : image.cut raw = .ok block) (memory : MemoryMap δ)
    {address : UInt16} (hle : image.address.toNat ≤ address.toNat)
    (hlt : address.toNat < image.address.toNat + image.length) :
    raw[image.offset + (address.toNat - image.address.toNat)]? =
      some ((memory.install image.address block).store.get address) := by
  have hindex : address.toNat - image.address.toNat < image.length := by omega
  rw [← getElem?_of_cut h hindex]
  exact (memory.installs_install image.address block).get_covered address hle
    (by rw [length_of_cut h]; exact Nat.lt_min.2 ⟨hlt, address.toNat_lt⟩)

theorem get_install_outside_of_cut (h : image.cut raw = .ok block) (memory : MemoryMap δ)
    {address : UInt16} (houtside : ¬ (image.address.toNat ≤ address.toNat ∧
      address.toNat < image.address.toNat + image.length)) :
    (memory.install image.address block).store.get address = memory.store.get address := by
  refine (memory.installs_install image.address block).get_uncovered address ?_
  rw [length_of_cut h]
  exact fun hinside => houtside ⟨hinside.1, (Nat.lt_min.1 hinside.2).1⟩

theorem Image.placed_install (h : image.cut raw = .ok block) (memory : MemoryMap δ) :
    image.Placed raw memory (memory.install image.address block) where
  get_inside := by
    intro i hi
    -- the image ends within memory, so that the address does not wrap
    have hfits := fits_of_cut h
    have hlt : image.address.toNat + i < 0x10000 := by omega
    have hplace : (UInt16.ofNat (image.address.toNat + i)).toNat = image.address.toNat + i :=
      UInt16.toNat_ofNat_of_lt hlt
    have hbyte : raw[image.offset + ((UInt16.ofNat (image.address.toNat + i)).toNat -
        image.address.toNat)]? = some _ := get_install_of_cut h memory (by omega) (by omega)
    rw [hplace, Nat.add_sub_cancel_left] at hbyte
    exact ⟨_, hplace, hbyte⟩
  get_outside := by
    intro address houtside
    exact get_install_outside_of_cut h memory (by omega)
  screenWritten_eq := rfl
  device_eq := rfl

/-- Cutting refuses an image just if it ends past the end of memory, or else past that of the
source, and says which; it never refuses another, and never gives other bytes than those of the
source from the image's first to its last. The ends are those of whole numbers, whether they have
room in 64 bits or not; the length of the source has, as that of any list of bytes at hand. What was
cut goes into memory as a whole. -/
theorem images_are_cut_exactly {δ : Type} (image : Image) {raw : List UInt8}
    (hraw : raw.length < UInt64.size) :
    (∀ error, image.cut raw = .error error ↔
      0x10000 < image.address.toNat + image.length ∧
        error = .outOfRange image.name image.address image.length ∨
      image.address.toNat + image.length ≤ 0x10000 ∧ raw.length < image.offset + image.length ∧
        error = .truncated image.name image.offset image.length raw.length) ∧
    (∀ block, image.cut raw = .ok block ↔
      image.address.toNat + image.length ≤ 0x10000 ∧
        image.offset + image.length ≤ raw.length ∧
        block.length = image.length ∧ ∀ i < image.length, block[i]? = raw[image.offset + i]?) ∧
    ∀ block (memory : MemoryMap δ), image.cut raw = .ok block →
      image.Placed raw memory (memory.install image.address block) ∧
      memory.installChecked image.address block = some (memory.install image.address block) ∧
      Store.dropped image.address.toNat block.length = 0 ∧
      MemoryMap.installRecords image.address block = [] := by
  refine ⟨fun error => cut_eq_error_iff hraw, fun block => ?_, fun block memory h =>
    ⟨Image.placed_install h memory, memory.installChecked_eq image.address block, ?_,
      installRecords_of_cut h⟩⟩
  · rw [cut_eq_ok_iff]
    refine and_congr_right fun _ => ⟨?_, ?_⟩
    · rintro ⟨-, hlong, hblock⟩
      exact ⟨hlong, (eq_take_drop_iff hlong).1 hblock⟩
    · rintro ⟨hlong, hbytes⟩
      exact ⟨Nat.lt_of_le_of_lt hlong hraw, hlong, (eq_take_drop_iff hlong).2 hbytes⟩
  · rw [dropped_eq_zero_iff, length_of_cut h]
    exact fits_of_cut h

/-- An image that ends where memory and its source do, one that starts where 64 bits end, and one
that is as long as they go. -/
theorem images_are_cut_exactly_at_both_ends :
    let raw : List UInt8 := [1, 2, 3, 4, 5]
    let top : Image := ⟨"a", 2, 3, 0xFFFD⟩
    let far : Image := ⟨"a", 0xFFFFFFFFFFFFFFFF, 2, 0⟩
    let long : Image := ⟨"a", 0, 0xFFFFFFFFFFFFFFFF, 0xFFFF⟩
    let memory : MemoryMap Unit := { device := () }
    raw.length < UInt64.size ∧ top.cut raw = .ok [3, 4, 5] ∧
      (memory.install 0xFFFD [3, 4, 5]).store.get 0xFFFF = 5 ∧
      far.cut raw = .error (.truncated "a" 0xFFFFFFFFFFFFFFFF 2 5) ∧
      long.cut raw = .error (.outOfRange "a" 0xFFFF 0xFFFFFFFFFFFFFFFF) := by
  intro raw top far long memory
  have hraw : raw.length < UInt64.size := by decide
  obtain ⟨-, hcuts, hplaced⟩ := @images_are_cut_exactly Unit top raw hraw
  obtain ⟨hfar, -⟩ := @images_are_cut_exactly Unit far raw hraw
  obtain ⟨hlong, -⟩ := @images_are_cut_exactly Unit long raw hraw
  have htop : top.cut raw = .ok [3, 4, 5] :=
    (hcuts [3, 4, 5]).2 ⟨by decide, by decide, rfl, by decide⟩
  refine ⟨hraw, htop, ?_, (hfar _).2 (Or.inr ⟨by decide, by decide, rfl⟩),
    (hlong _).2 (Or.inl ⟨by decide, rfl⟩)⟩
  obtain ⟨address, haddress, hbyte⟩ := (hplaced [3, 4, 5] memory htop).1.get_inside 2 (by decide)
  obtain rfl : address = 0xFFFF := UInt16.toNat_inj.1 haddress
  exact (Option.some.inj hbyte).symm

end Challenger1P.Rom
