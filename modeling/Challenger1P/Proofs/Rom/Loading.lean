import Mathlib.Data.List.Pairwise
import Challenger1P.Proofs.Machine.WarmReset
import Challenger1P.Proofs.Memory.AddressMap
import Challenger1P.Proofs.Rom.Fetch

/-!
# What loading images leaves

`Rom.load` and `Machine.load` load images into the memory or the machine at hand, which stays as it
is until they change it. What is left after a failure is then a question of what was changed before
it: nothing, since all blocks are fetched before the first is put into memory. Without a failure,
the memory holds at each address the byte of the last image that covers it (`Loaded`).

* `run_load`, `Machine.run_load`: loading in place comes to what `populate` and `boot` give.
* `Loaded.cons`: one more image, below the others.
* `loaded_installAll`: installing all blocks loads all images.
* `Loaded.eq_of_perm`: images that keep out of each other's way can be loaded in any order.
-/

namespace Challenger1P

/-- What is left at hand: what comes of it, or what there was before where nothing does. -/
def inPlace {ε σ : Type} (before : σ) : Except ε σ → EStateM.Result ε σ Unit
  | .ok after => .ok () after
  | .error failure => .error failure before

namespace Rom

variable {δ : Type} {source : Source} {image : Image} {images others rest : List Image}
  {block : List UInt8} {blocks : List (List UInt8)} {memory after after' : MemoryMap δ}

/-! ## In place -/

/-- Install blocks in the memory at hand, one after the other. -/
def installEach (pairs : List (Image × List UInt8)) : EStateM Failure (MemoryMap δ) Unit :=
  pairs.forM fun (image, block) => modify (·.install image.address block)

/-- Load images into the memory at hand. -/
def load (source : Source) (images : List Image) : EStateM Failure (MemoryMap δ) Unit := do
  let blocks ← MonadExcept.ofExcept (obtainAll source images)
  installEach (images.zip blocks)

theorem run_installEach (pairs : List (Image × List UInt8)) (memory : MemoryMap δ) :
    (installEach pairs).run memory = .ok () (installAll memory pairs) := by
  induction pairs generalizing memory with
  | nil => rfl
  | cons pair pairs ih => exact ih (memory.install pair.1.address pair.2)

theorem run_load (memory : MemoryMap δ) :
    (load source images).run memory = inPlace memory (populate memory source images) := by
  unfold load populate
  cases obtainAll source images with
  | ok blocks => exact run_installEach _ _
  | error failure => rfl

/-! ## The bytes -/

/-- The addresses that an image goes to. -/
def Image.Covers (image : Image) (address : UInt16) : Prop :=
  image.address.toNat ≤ address.toNat ∧ address.toNat < image.address.toNat + image.length

instance (image : Image) : DecidablePred image.Covers :=
  fun _ => inferInstanceAs (Decidable (_ ∧ _))

/-- The source of an image has this byte for this address. -/
def Image.Provides (source : Source) (image : Image) (address : UInt16) (value : UInt8) : Prop :=
  ∃ raw, source image.name = .bytes raw ∧
    raw[image.offset + (address.toNat - image.address.toNat)]? = some value

theorem Image.Provides.unique {address : UInt16} {value value' : UInt8}
    (h : image.Provides source address value) (h' : image.Provides source address value') :
    value = value' := by
  obtain ⟨raw, hraw, hvalue⟩ := h
  obtain ⟨raw', hraw', hvalue'⟩ := h'
  obtain rfl : raw = raw' := Fetched.bytes.inj (hraw.symm.trans hraw')
  exact Option.some.inj (hvalue.symm.trans hvalue')

theorem fits_of_obtain (h : image.obtain source = .ok block) :
    image.address.toNat + image.length ≤ 0x10000 := by
  obtain ⟨raw, -, hcut⟩ := obtain_eq_ok_iff.1 h
  exact fits_of_cut hcut

theorem provides_install (h : image.obtain source = .ok block) (memory : MemoryMap δ)
    {address : UInt16} (hcovers : image.Covers address) :
    image.Provides source address ((memory.install image.address block).store.get address) := by
  obtain ⟨raw, hraw, hcut⟩ := obtain_eq_ok_iff.1 h
  exact ⟨raw, hraw, get_install_of_cut hcut memory hcovers.1 hcovers.2⟩

theorem get_install_of_not_covers (h : image.obtain source = .ok block) (memory : MemoryMap δ)
    {address : UInt16} (hcovers : ¬ image.Covers address) :
    (memory.install image.address block).store.get address = memory.store.get address := by
  obtain ⟨raw, -, hcut⟩ := obtain_eq_ok_iff.1 h
  exact get_install_outside_of_cut hcut memory hcovers

/-- What images leave of a memory that they are all loaded into, in order. -/
structure Loaded (source : Source) (images : List Image) (memory after : MemoryMap δ) : Prop where
  /-- An address holds the byte of the last image that covers it. -/
  provides_of_last : ∀ (earlier : List Image) (image : Image) (later : List Image)
    (address : UInt16), images = earlier ++ image :: later → image.Covers address →
    (∀ other ∈ later, ¬ other.Covers address) →
    image.Provides source address (after.store.get address)
  /-- An address that no image covers holds what it held. -/
  get_uncovered : ∀ address, (∀ image ∈ images, ¬ image.Covers address) →
    after.store.get address = memory.store.get address
  screenWritten_eq : after.screenWritten = memory.screenWritten
  device_eq : after.device = memory.device

theorem Loaded.nil : Loaded source [] memory memory where
  provides_of_last := by
    intro earlier image later address hsplit
    exact absurd hsplit (by simp)
  get_uncovered _ _ := rfl
  screenWritten_eq := rfl
  device_eq := rfl

theorem Loaded.cons (h : image.obtain source = .ok block)
    (hrest : Loaded source rest (memory.install image.address block) after) :
    Loaded source (image :: rest) memory after where
  provides_of_last := by
    intro earlier last later address hsplit hcovers hlater
    cases earlier with
    | nil =>
      -- the image itself is the last, so what it leaves there stays
      obtain ⟨rfl, rfl⟩ := List.cons.inj hsplit
      rw [hrest.get_uncovered address hlater]
      exact provides_install h memory hcovers
    | cons first earlier =>
      obtain ⟨-, hsplit⟩ := List.cons.inj hsplit
      exact hrest.provides_of_last earlier last later address hsplit hcovers hlater
  get_uncovered := by
    intro address huncovered
    obtain ⟨hfirst, hothers⟩ := List.forall_mem_cons.1 huncovered
    rw [hrest.get_uncovered address hothers, get_install_of_not_covers h memory hfirst]
  screenWritten_eq := hrest.screenWritten_eq
  device_eq := hrest.device_eq

theorem loaded_installAll (h : Obtained source images blocks) (memory : MemoryMap δ) :
    Loaded source images memory (installAll memory (images.zip blocks)) := by
  induction h generalizing memory with
  | nil => exact .nil
  | cons himage _ ih => exact .cons himage (ih _)

/-! ## In any order -/

/-- No address is covered by two of the images. -/
def Apart (images : List Image) : Prop :=
  images.Pairwise fun image other => ∀ address, ¬ (image.Covers address ∧ other.Covers address)

theorem Apart.perm (h : Apart images) (hperm : images.Perm others) : Apart others :=
  List.Perm.pairwise hperm h fun hxy address hyx => hxy address hyx.symm

theorem Loaded.provides_of_apart (h : Loaded source images memory after) (hapart : Apart images)
    (hmem : image ∈ images) {address : UInt16} (hcovers : image.Covers address) :
    image.Provides source address (after.store.get address) := by
  obtain ⟨earlier, later, rfl⟩ := List.append_of_mem hmem
  refine h.provides_of_last earlier image later address rfl hcovers fun other hother hboth => ?_
  have hlater := (List.pairwise_cons.1 (List.pairwise_append.1 hapart).2.1).1 other hother
  exact hlater address ⟨hcovers, hboth⟩

/-- Images that keep out of each other's way leave the same memory in any order. -/
theorem Loaded.eq_of_perm (h : Loaded source images memory after)
    (h' : Loaded source others memory after') (hperm : images.Perm others)
    (hapart : Apart images) : after = after' := by
  have hstore : after.store = after'.store := by
    refine Store.ext_get fun address => ?_
    by_cases hcovered : ∃ image ∈ images, image.Covers address
    · obtain ⟨image, hmem, hcovers⟩ := hcovered
      exact (h.provides_of_apart hapart hmem hcovers).unique
        (h'.provides_of_apart (hapart.perm hperm) (hperm.mem_iff.1 hmem) hcovers)
    · simp only [not_exists, not_and] at hcovered
      rw [h.get_uncovered address hcovered,
        h'.get_uncovered address fun image hmem => hcovered image (hperm.mem_iff.2 hmem)]
  obtain ⟨store, written, device⟩ := after
  obtain ⟨store', written', device'⟩ := after'
  obtain rfl : store = store' := hstore
  obtain rfl : written = written' := h.screenWritten_eq.trans h'.screenWritten_eq.symm
  obtain rfl : device = device' := h.device_eq.trans h'.device_eq.symm
  rfl

/-! ## The outcome -/

theorem FirstFailure.run_load (first : FirstFailure source images)
    (hcalm : ∀ image ∈ images, source image.name ≠ .crashed) (memory : MemoryMap δ) :
    (load source images).run memory = .error (.refused first.error) memory := by
  have hlater : ∀ later ∈ first.rest, source later.name ≠ .crashed :=
    fun later hmem => hcalm later (by simp [first.images_eq, hmem])
  rw [Rom.run_load, populate, first.obtainAll_of_not_crashed hlater]
  rfl

theorem run_load_of_obtained (h : Obtained source images blocks) (memory : MemoryMap δ) :
    (load source images).run memory = .ok () (installAll memory (images.zip blocks)) := by
  rw [run_load, populate, obtainAll_of_obtained h]
  rfl

theorem obtained_of_run_load (h : (load source images).run memory = .ok () after) :
    ∃ blocks, Obtained source images blocks ∧ after = installAll memory (images.zip blocks) := by
  rw [run_load, populate] at h
  cases hall : obtainAll source images with
  | error failure =>
    rw [hall] at h
    cases h
  | ok blocks =>
    rw [hall] at h
    cases h
    exact ⟨blocks, obtained_of_obtainAll hall, rfl⟩

theorem run_load_of_perm (h : (load source images).run memory = .ok () after)
    (hperm : images.Perm others) (hapart : Apart images) :
    (load source others).run memory = .ok () after := by
  obtain ⟨blocks, hblocks, rfl⟩ := obtained_of_run_load h
  obtain ⟨blocks', hblocks'⟩ : ∃ blocks', Obtained source others blocks' :=
    exists_obtained_of_forall fun image hmem =>
      hblocks.exists_of_mem image (hperm.mem_iff.2 hmem)
  rw [run_load_of_obtained hblocks']
  exact congrArg _ ((loaded_installAll hblocks memory).eq_of_perm
    (loaded_installAll hblocks' memory) hperm hapart).symm

/-- Loading has nothing to warn of: no block is cut off. -/
theorem level_of_mem_populateRecords (source : Source) (images : List Image) :
    ∀ record ∈ populateRecords source images, record.level = .debug := by
  intro record hmem
  unfold populateRecords at hmem
  cases hall : obtainAll source images with
  | error failure =>
    rw [hall] at hmem
    exact absurd hmem List.not_mem_nil
  | ok blocks =>
    rw [hall] at hmem
    obtain ⟨⟨image, block⟩, hpair, hrecord⟩ := List.mem_flatMap.1 hmem
    have hobtain : image.obtain source = .ok block :=
      List.forall₂_zip (obtained_of_obtainAll hall) hpair
    obtain ⟨raw, -, hcut⟩ := obtain_eq_ok_iff.1 hobtain
    have hnone : MemoryMap.installRecords image.address block = [] := installRecords_of_cut hcut
    simp only [installRecords, hnone, List.mem_singleton] at hrecord
    rw [hrecord]

end Rom

/-! ## The machine -/

namespace Machine

/-- Do something with the memory of the machine at hand. -/
def onMemory {ε α : Type} (action : EStateM ε (MemoryMap Keyboard) α) : EStateM ε Machine α :=
  fun m =>
    match action.run m.memory with
    | .ok result memory => .ok result (m.mapMemory fun _ => memory)
    | .error error memory => .error error (m.mapMemory fun _ => memory)

/-- Load images into the machine at hand, and reset it. -/
def load (source : Rom.Source) (images : List Rom.Image) : EStateM Rom.Failure Machine Unit := do
  onMemory (Rom.load source images)
  modify reset

variable {source : Rom.Source} {images : List Rom.Image} {m : Machine}

theorem memory_reset (m : Machine) : m.reset.memory = m.memory := by
  show m.cpu.reset.bus = m.cpu.bus
  rw [Cpu.reset_eq]

theorem run_load_of_ok {after : MemoryMap Keyboard}
    (h : (Rom.load source images).run m.memory = .ok () after) :
    (load source images).run m = .ok () (m.mapMemory fun _ => after).reset := by
  show EStateM.bind (onMemory (Rom.load source images)) (fun _ => modify reset) m = _
  simp only [EStateM.bind, onMemory, h]
  rfl

theorem run_load_of_error {failure : Rom.Failure}
    (h : (Rom.load source images).run m.memory = .error failure m.memory) :
    (load source images).run m = .error failure m := by
  show EStateM.bind (onMemory (Rom.load source images)) (fun _ => modify reset) m = _
  simp only [EStateM.bind, onMemory, h]
  rfl

theorem run_load (source : Rom.Source) (images : List Rom.Image) (m : Machine) :
    (load source images).run m = inPlace m (m.boot source images) := by
  have hmemory : (Rom.load source images).run m.memory = _ := Rom.run_load m.memory
  unfold boot populate
  cases hpopulate : Rom.populate m.memory source images with
  | ok after =>
    rw [hpopulate] at hmemory
    exact run_load_of_ok hmemory
  | error failure =>
    rw [hpopulate] at hmemory
    exact run_load_of_error hmemory

end Machine

/-- Loading in place is populating a memory or booting a machine. If there are images that cannot be
had, it gives the error of the first of them, and what is at hand stays as it is. If there are none,
the memory comes to hold what the last image that covers an address has for it, no image is cut off,
and the machine starts from the address that its memory then holds. Images that keep out of each
other's way can be loaded in any order. -/
theorem loading_is_all_or_nothing {δ : Type} {source : Rom.Source} {images : List Rom.Image}
    (hcalm : ∀ image ∈ images, source image.name ≠ .crashed) (memory : MemoryMap δ) (m : Machine) :
    ((Rom.load source images).run memory = inPlace memory (Rom.populate memory source images) ∧
      (Machine.load source images).run m = inPlace m (m.boot source images)) ∧
    ((∃ image ∈ images, ∃ error, image.obtain source = .error error) →
      ∃ first : Rom.FirstFailure source images,
        (Rom.load source images).run memory = .error (.refused first.error) memory ∧
        (Machine.load source images).run m = .error (.refused first.error) m) ∧
    ((∀ image ∈ images, ∃ block, image.obtain source = .ok block) →
      (∀ image ∈ images, image.address.toNat + image.length ≤ 0x10000) ∧
      (∃ after, (Rom.load source images).run memory = .ok () after ∧
        Rom.Loaded source images memory after) ∧
      ∃ booted, (Machine.load source images).run m = .ok () booted ∧
        Rom.Loaded source images m.memory booted.memory ∧
        booted.cpu =
          { registers :=
              { sp := 0xFD
                pc := word (booted.memory.store.get 0xFFFC) (booted.memory.store.get 0xFFFD)
                flags := { interruptDisable := true, always := true } }
            bus := booted.memory } ∧
        booted.clock = m.clock ∧ booted.budget = m.budget) ∧
    (∀ record ∈ Rom.populateRecords source images, record.level = .debug) ∧
    ∀ others after, images.Perm others → Rom.Apart images →
      ((Rom.load source images).run memory = .ok () after ↔
        (Rom.load source others).run memory = .ok () after) := by
  refine ⟨⟨Rom.run_load memory, Machine.run_load source images m⟩,
    fun hfails => ?_, fun hobtain => ?_, Rom.level_of_mem_populateRecords source images, ?_⟩
  · obtain ⟨first⟩ := Rom.exists_firstFailure_of_exists hfails
    exact ⟨first, first.run_load hcalm memory,
      Machine.run_load_of_error (first.run_load hcalm m.memory)⟩
  · obtain ⟨blocks, hblocks⟩ := Rom.exists_obtained_of_forall hobtain
    have hloaded := Rom.loaded_installAll hblocks m.memory
    refine ⟨fun image hmem => ?_, ⟨_, Rom.run_load_of_obtained hblocks memory,
      Rom.loaded_installAll hblocks memory⟩, _,
      Machine.run_load_of_ok (Rom.run_load_of_obtained hblocks m.memory), ?_⟩
    · obtain ⟨block, hblock⟩ := hobtain image hmem
      exact Rom.fits_of_obtain hblock
    · rw [Machine.memory_reset]
      exact ⟨hloaded, Cpu.reset_eq _, rfl, rfl⟩
  · intro others after hperm hapart
    exact ⟨fun h => Rom.run_load_of_perm h hperm hapart,
      fun h => Rom.run_load_of_perm h hperm.symm (hapart.perm hperm)⟩

/-- The reset vector comes from two images, the second of which covers a part of the first. -/
theorem loading_is_all_or_nothing_where_images_overlap :
    let source := Rom.Source.shelf [("a", .bytes [0, 1, 2, 3, 4]), ("b", .bytes [7, 8, 9])]
    let low : Rom.Image := ⟨"a", 1, 4, 0xFFFB⟩
    let top : Rom.Image := ⟨"b", 1, 2, 0xFFFD⟩
    let missing : Rom.Image := ⟨"c", 0, 0, 0⟩
    let apart : Rom.Image := ⟨"a", 0, 2, 0xFFFB⟩
    let m : Machine :=
      { cpu := { bus := { device := {} } }, clock := { rateHz := 3000000 }, budget := 30000
        budget_eq := by decide +kernel }
    (∃ booted, (Machine.load source [low, top]).run m = .ok () booted ∧
      booted.memory.store.get 0xFFFB = 1 ∧ booted.memory.store.get 0xFFFD = 8 ∧
      booted.cpu.registers.pc = 0x0802) ∧
    (∃ error, (Machine.load source [low, missing, top]).run m = .error (.refused error) m) ∧
    ∃ after, (Rom.load source [apart, top]).run m.memory = .ok () after ∧
      (Rom.load source [top, apart]).run m.memory = .ok () after := by
  intro source low top missing apart m
  have hlow : source "a" = .bytes [0, 1, 2, 3, 4] := rfl
  have htop : source "b" = .bytes [7, 8, 9] := rfl
  have hmissing : source "c" = .failed .notOnShelf := rfl
  refine ⟨?_, ?_, ?_⟩
  · have hcalm : ∀ image ∈ [low, top], source image.name ≠ .crashed := by
      simp [low, top, hlow, htop]
    have hobtain : ∀ image ∈ [low, top], ∃ block, image.obtain source = .ok block := by
      simp only [List.forall_mem_cons, List.not_mem_nil, false_implies, implies_true, and_true]
      exact ⟨⟨_, rfl⟩, ⟨_, rfl⟩⟩
    obtain ⟨-, -, hloads, -⟩ := loading_is_all_or_nothing hcalm m.memory m
    obtain ⟨-, -, booted, hrun, hloaded, hcpu, -⟩ := hloads hobtain
    have hfirst : booted.memory.store.get 0xFFFB = 1 :=
      (hloaded.provides_of_last [] low [top] 0xFFFB rfl (by decide) (by decide)).unique
        ⟨_, hlow, rfl⟩
    have hbefore : booted.memory.store.get 0xFFFC = 2 :=
      (hloaded.provides_of_last [] low [top] 0xFFFC rfl (by decide) (by decide)).unique
        ⟨_, hlow, rfl⟩
    have hshared : booted.memory.store.get 0xFFFD = 8 :=
      (hloaded.provides_of_last [low] top [] 0xFFFD rfl (by decide) (by decide)).unique
        ⟨_, htop, rfl⟩
    refine ⟨booted, hrun, hfirst, hshared, ?_⟩
    rw [hcpu, hbefore, hshared]
    rfl
  · have hcalm : ∀ image ∈ [low, missing, top], source image.name ≠ .crashed := by
      simp [low, missing, top, hlow, hmissing, htop]
    obtain ⟨-, hfails, -⟩ := loading_is_all_or_nothing hcalm m.memory m
    obtain ⟨first, -, hrun⟩ := hfails ⟨missing, by simp, _, rfl⟩
    exact ⟨first.error, hrun⟩
  · have hcalm : ∀ image ∈ [apart, top], source image.name ≠ .crashed := by
      simp [apart, top, hlow, htop]
    have hobtain : ∀ image ∈ [apart, top], ∃ block, image.obtain source = .ok block := by
      simp only [List.forall_mem_cons, List.not_mem_nil, false_implies, implies_true, and_true]
      exact ⟨⟨_, rfl⟩, ⟨_, rfl⟩⟩
    have hapart : Rom.Apart [apart, top] := by
      simp only [Rom.Apart, List.pairwise_pair, Rom.Image.Covers, apart, top,
        UInt16.reduceToNat]
      omega
    obtain ⟨-, -, hloads, -, hperm⟩ := loading_is_all_or_nothing hcalm m.memory m
    obtain ⟨-, ⟨after, hrun, -⟩, -⟩ := hloads hobtain
    exact ⟨after, hrun, (hperm [top, apart] after (.swap _ _ _) hapart).1 hrun⟩

end Challenger1P
