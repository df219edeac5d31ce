import Challenger1P.Keyboard.Matrix
import Challenger1P.Mos6502.Cpu
import Challenger1P.Proofs.Memory.Map
import Challenger1P.Proofs.Mos6502.Stack

/-!
# The stack is a bounded list

On a bus whose page one is plain memory (`StackMemory`), the bytes above the stack pointer are a
list of at most 255 bytes, the top first (`Cpu.stack`), and pushing and pulling are what
`BoundedStack` says: bytes are put on one by one or taken off the top if they all fit, and nothing
is done otherwise.

* `stackBytes_writeDown`, `stackBytes_readUp`: what the two loops make of the list.
* `push_of_lt`, `pull_of_lt`: a push or pull that does not fit leaves the processor as it was.
* `stackCall_refines`: each call does to the list what the abstract one does.
-/

namespace Challenger1P

/-! ## Page one -/

/-- A bus on which page one is plain memory: what is written there is read back, and nothing else
changes it. -/
class StackMemory (β : Type) [Bus β] where
  /-- The byte at `$0100 + i`. -/
  byteAt : β → UInt8 → UInt8
  read_fst (bus : β) (i : UInt8) : (Bus.read bus (stackAddress i)).1 = byteAt bus i
  byteAt_read (bus : β) (address : UInt16) (i : UInt8) :
    byteAt (Bus.read bus address).2 i = byteAt bus i
  byteAt_write (bus : β) (address : UInt16) (value i : UInt8) :
    byteAt (Bus.write bus address value) i = if address = stackAddress i then value else byteAt bus i

theorem toNat_stackAddress (sp : UInt8) : (stackAddress sp).toNat = 0x0100 + sp.toNat := by
  have := sp.toNat_lt
  rw [stackAddress_eq, UInt16.toNat_ofNat']
  omega

theorem stackAddress_inj {i j : UInt8} : stackAddress i = stackAddress j ↔ i = j := by
  rw [← UInt16.toNat_inj, toNat_stackAddress, toNat_stackAddress, ← UInt8.toNat_inj]
  omega

theorem region_stackAddress (i : UInt8) : region (stackAddress i) = .ram := by
  have := i.toNat_lt
  rw [region_eq_ram, UInt16.lt_iff_toNat_lt, toNat_stackAddress]
  show 0x0100 + i.toNat < 0x8000
  omega

instance : StackMemory Store where
  byteAt s i := s.get (stackAddress i)
  read_fst _ _ := rfl
  byteAt_read _ _ _ := rfl
  byteAt_write s address value i := s.get_set address (stackAddress i) value

instance {δ : Type} [Device δ] : StackMemory (MemoryMap δ) where
  byteAt m i := m.store.get (stackAddress i)
  read_fst m i := by rw [MemoryMap.read_of_ne_device (by rw [region_stackAddress]; decide)]
  byteAt_read m address i := by rw [MemoryMap.store_read]
  byteAt_write m address value i := by
    rw [MemoryMap.get_write]
    by_cases h : address = stackAddress i
    · simp [h, writable_iff, region_stackAddress]
    · simp [h]

/-! ## The list -/

section

open StackMemory

variable {β : Type} [Bus β] [StackMemory β]

/-- The bytes above a stack pointer, the top first. -/
def stackBytes (sp : UInt8) (bus : β) : List UInt8 :=
  (List.range' (sp.toNat + 1) (255 - sp.toNat)).map fun i => byteAt bus (UInt8.ofNat i)

@[simp] theorem length_stackBytes (sp : UInt8) (bus : β) :
    (stackBytes sp bus).length = 255 - sp.toNat := by
  simp [stackBytes]

theorem stackBytes_read (sp : UInt8) (bus : β) (address : UInt16) :
    stackBytes sp (Bus.read bus address).2 = stackBytes sp bus := by
  simp only [stackBytes, byteAt_read]

theorem stackBytes_of_lt {sp : UInt8} (h : sp.toNat < 255) (bus : β) :
    stackBytes sp bus = byteAt bus (sp + 1) :: stackBytes (sp + 1) bus := by
  have hsp : (sp + 1).toNat = sp.toNat + 1 := by
    rw [UInt8.toNat_add, UInt8.toNat_one]
    omega
  rw [stackBytes, stackBytes, hsp, show 255 - sp.toNat = 255 - (sp.toNat + 1) + 1 by omega,
    List.range'_succ, List.map_cons, ← hsp, UInt8.ofNat_toNat]

theorem stackBytes_run_of_writeFree {α : Type} {t : Transaction α} (h : t.WriteFree) (sp : UInt8)
    (bus : β) : stackBytes sp (t.run bus).2 = stackBytes sp bus :=
  h.run_induction (P := fun after => stackBytes sp after = stackBytes sp bus)
    (fun after address hafter => (stackBytes_read sp after address).trans hafter) rfl

/-- The top of the list is made of the bytes just above the stack pointer. -/
theorem take_stackBytes_congr {bus bus' : β} {sp : UInt8} {count : Nat} (hle : count ≤ sp.toNat)
    (h : ∀ i < count, byteAt bus' (sp - UInt8.ofNat i) = byteAt bus (sp - UInt8.ofNat i)) :
    (stackBytes (sp - UInt8.ofNat count) bus').take count =
      (stackBytes (sp - UInt8.ofNat count) bus).take count := by
  induction count with
  | zero => rfl
  | succ count ih =>
    have hlt := sp.toNat_lt
    have hbelow : (sp - UInt8.ofNat (count + 1)).toNat < 255 := by
      rw [toNat_sub_ofNat hle]
      omega
    have hnext : sp - UInt8.ofNat (count + 1) + 1 = sp - UInt8.ofNat count := by
      rw [← UInt8.toNat_inj, UInt8.toNat_add, toNat_sub_ofNat hle, toNat_sub_ofNat (by omega),
        UInt8.toNat_one]
      omega
    rw [stackBytes_of_lt hbelow, stackBytes_of_lt hbelow, hnext, List.take_succ_cons,
      List.take_succ_cons, h count (Nat.lt_succ_self count),
      ih (Nat.le_of_succ_le hle) fun i hi => h i (Nat.lt_succ_of_lt hi)]

/-- A write outside the list does not change it. -/
theorem stackBytes_write_of_forall_ne {sp : UInt8} {address : UInt16}
    (h : ∀ i : UInt8, sp < i → address ≠ stackAddress i) (bus : β) (value : UInt8) :
    stackBytes sp (Bus.write bus address value) = stackBytes sp bus := by
  refine List.map_congr_left fun i hi => ?_
  obtain ⟨hlow, hhigh⟩ := List.mem_range'_1.1 hi
  rw [byteAt_write, if_neg (h _ _)]
  rw [UInt8.lt_iff_toNat_lt, UInt8.toNat_ofNat']
  omega

/-- Writing where the pointer points and moving it down puts one byte on. -/
theorem stackBytes_push {sp : UInt8} (h : 0 < sp.toNat) (bus : β) (value : UInt8) :
    stackBytes (sp - 1) (Bus.write bus (stackAddress sp) value) = value :: stackBytes sp bus := by
  have hsp : (sp - 1).toNat = sp.toNat - 1 := toNat_pushed_sp h
  have hlt := sp.toNat_lt
  have hback : sp - 1 + 1 = sp := UInt8.sub_add_cancel sp 1
  rw [stackBytes_of_lt (by omega), hback, byteAt_write, if_pos rfl,
    stackBytes_write_of_forall_ne fun i hi => ?_]
  rw [ne_eq, stackAddress_inj]
  rintro rfl
  exact absurd hi (UInt8.lt_irrefl _)

/-- Writing downwards puts the bytes on one by one. -/
theorem stackBytes_writeDown {sp : UInt8} {values : List UInt8} (h : values.length ≤ sp.toNat)
    (bus : β) :
    stackBytes ((writeDown sp values).run bus).1 ((writeDown sp values).run bus).2 =
      values.foldl (fun bytes value => value :: bytes) (stackBytes sp bus) := by
  induction values generalizing sp bus with
  | nil => rfl
  | cons value values ih =>
    rw [List.length_cons] at h
    have hsp : (sp - 1).toNat = sp.toNat - 1 := toNat_pushed_sp (by omega)
    rw [List.foldl_cons, ← stackBytes_push (by omega) bus value, ← ih (by omega)]
    rfl

/-- Reading upwards takes the bytes off the top. -/
theorem stackBytes_readUp {sp : UInt8} {count : Nat} (h : sp.toNat + count ≤ 255) (bus : β) :
    ((readUp sp count).run bus).1.1.toList = (stackBytes sp bus).take count ∧
      stackBytes ((readUp sp count).run bus).1.2 ((readUp sp count).run bus).2 =
        (stackBytes sp bus).drop count := by
  induction count with
  | zero => exact ⟨rfl, rfl⟩
  | succ count ih =>
    obtain ⟨hvalues, hrest⟩ := ih (by omega)
    have hsp := (readUp_sp sp count).run bus
    rcases hrun : (readUp sp count).run bus with ⟨⟨values, sp'⟩, bus'⟩
    simp only [hrun] at hvalues hrest hsp
    have hlt : sp'.toNat < 255 := by
      rw [hsp, toNat_pulled_sp (by omega)]
      omega
    rw [stackBytes_of_lt hlt] at hrest
    have hstep : (readUp sp (count + 1)).run bus =
        ((values.push (byteAt bus' (sp' + 1)), sp' + 1),
          (Bus.read bus' (stackAddress (sp' + 1))).2) := by
      rw [readUp, Transaction.bind_eq, Transaction.run_bind, hrun, ← read_fst]
      rfl
    have hget : (stackBytes sp bus)[count]? = some (byteAt bus' (sp' + 1)) := by
      rw [← List.head?_drop, ← hrest, List.head?_cons]
    rw [hstep, List.take_add_one, hget, ← hvalues, ← List.tail_drop, ← hrest]
    exact ⟨Vector.toList_push, stackBytes_read _ _ _⟩

end

/-! ## The abstract stack -/

/-- A stack with room for 255 bytes. -/
@[ext]
structure BoundedStack where
  /-- What is on it, the top first. -/
  bytes : List UInt8
  length_le : bytes.length ≤ 255
  deriving DecidableEq, Repr

namespace BoundedStack

/-- How many more bytes there is room for. -/
def room (s : BoundedStack) : UInt8 := UInt8.ofNat (255 - s.bytes.length)

/-- Put bytes on one by one, unless they do not all fit. -/
def push (s : BoundedStack) (values : List UInt8) : Except Fault Unit × BoundedStack :=
  if h : s.bytes.length + values.length ≤ 255 then
    let bytes := values.foldl (fun bytes value => value :: bytes) s.bytes
    (.ok (), { bytes, length_le := by simpa [bytes, Nat.add_comm] using h })
  else (.error (.stackOverflow s.room values.length), s)

/-- Take bytes off the top, unless there are not as many. -/
def pull (s : BoundedStack) (count : Nat) : Except Fault (List UInt8) × BoundedStack :=
  if count ≤ s.bytes.length then
    (.ok (s.bytes.take count),
      { bytes := s.bytes.drop count, length_le := by have := s.length_le; simp; omega })
  else (.error (.stackUnderflow s.room count), s)

end BoundedStack

/-- What can happen to the stack. -/
inductive StackCall where
  | push (values : List UInt8)
  | pull (count : Nat)
  /-- A write elsewhere on the bus. -/
  | write (address : UInt16) (value : UInt8) (outside : address < 0x0100 ∨ 0x0200 ≤ address)

/-- Make one call on the abstract stack. A pull answers with bytes, the other calls with none. -/
def BoundedStack.call (s : BoundedStack) : StackCall → Except Fault (List UInt8) × BoundedStack
  | .push values => ((s.push values).1.map fun _ => [], (s.push values).2)
  | .pull count => s.pull count
  | .write _ _ _ => (.ok [], s)

/-- Make one call on the bus. -/
def Cpu.stackCall {β : Type} [Bus β] (c : Cpu β) : StackCall → Except Fault (List UInt8) × Cpu β
  | .push values => ((c.push values).1.map fun _ => [], (c.push values).2)
  | .pull count => ((c.pull count).1.map Vector.toList, (c.pull count).2)
  | .write address value _ => (.ok [], { c with bus := Bus.write c.bus address value })

/-- Make calls one after the other and collect the answers. -/
def inTurn {σ κ α : Type} (call : σ → κ → α × σ) (s : σ) : List κ → List α × σ
  | [] => ([], s)
  | k :: rest =>
    let answered := call s k
    let after := inTurn call answered.2 rest
    (answered.1 :: after.1, after.2)

/-- What one call does through a view of the state, all calls do. -/
theorem inTurn_view {σ τ κ α : Type} {call : σ → κ → α × σ} {call' : τ → κ → α × τ} {view : σ → τ}
    (h : ∀ s k, (call s k).1 = (call' (view s) k).1 ∧ view (call s k).2 = (call' (view s) k).2)
    (s : σ) (list : List κ) :
    (inTurn call s list).1 = (inTurn call' (view s) list).1 ∧
      view (inTurn call s list).2 = (inTurn call' (view s) list).2 := by
  induction list generalizing s with
  | nil => exact ⟨rfl, rfl⟩
  | cons k rest ih =>
    obtain ⟨hanswer, hstate⟩ := h s k
    obtain ⟨hrest, hfinal⟩ := ih (call s k).2
    rw [hstate] at hrest hfinal
    exact ⟨by rw [inTurn, inTurn, hanswer, hrest], hfinal⟩

/-! ## The processor's stack is one -/

namespace Cpu

variable {β : Type} [Bus β]

/-- The byte list above the stack pointer. -/
def stack [StackMemory β] (c : Cpu β) : BoundedStack where
  bytes := stackBytes c.registers.sp c.bus
  length_le := by
    rw [length_stackBytes]
    omega

theorem push_of_lt {c : Cpu β} {values : List UInt8} (h : c.registers.sp.toNat < values.length) :
    c.push values = (.error (.stackOverflow c.registers.sp values.length), c) := by
  obtain ⟨registers, cycles, bus, stop⟩ := c
  rw [push, Registers.push, if_pos h]
  rfl

theorem push_of_le {c : Cpu β} {values : List UInt8} (h : values.length ≤ c.registers.sp.toNat) :
    c.push values = (.ok (), { c with
      registers := { c.registers with sp := ((writeDown c.registers.sp values).run c.bus).1 }
      bus := ((writeDown c.registers.sp values).run c.bus).2 }) := by
  obtain ⟨registers, cycles, bus, stop⟩ := c
  rw [push, Registers.push, if_neg (Nat.not_lt.2 h)]
  simp [onBus]

theorem pull_of_lt {c : Cpu β} {count : Nat} (h : 255 < c.registers.sp.toNat + count) :
    c.pull count = (.error (.stackUnderflow c.registers.sp count), c) := by
  obtain ⟨registers, cycles, bus, stop⟩ := c
  rw [pull, Registers.pull, if_pos h]
  rfl

theorem pull_of_le {c : Cpu β} {count : Nat} (h : c.registers.sp.toNat + count ≤ 255) :
    c.pull count = (.ok ((readUp c.registers.sp count).run c.bus).1.1, { c with
      registers := { c.registers with sp := ((readUp c.registers.sp count).run c.bus).1.2 }
      bus := ((readUp c.registers.sp count).run c.bus).2 }) := by
  obtain ⟨registers, cycles, bus, stop⟩ := c
  rw [pull, Registers.pull, if_neg (Nat.not_lt.2 h)]
  simp [onBus]

/-- What a push or pull does to the bus. -/
def stackAccesses (c : Cpu β) : StackCall → List Access
  | .push values => (c.registers.push values).accesses c.bus
  | .pull count => (c.registers.pull count).accesses c.bus
  | .write _ _ _ => []

/-- A call that is refused leaves the processor and its bus as they were. -/
theorem stackCall_of_error {c : Cpu β} {call : StackCall} {fault : Fault}
    (h : (c.stackCall call).1 = .error fault) : (c.stackCall call).2 = c := by
  cases call with
  | push values =>
    by_cases hlt : c.registers.sp.toNat < values.length
    · rw [stackCall, push_of_lt hlt]
    · rw [stackCall, push_of_le (Nat.not_lt.1 hlt)] at h
      cases h
  | pull count =>
    by_cases hlt : 255 < c.registers.sp.toNat + count
    · rw [stackCall, pull_of_lt hlt]
    · rw [stackCall, pull_of_le (Nat.not_lt.1 hlt)] at h
      cases h
  | write address value outside => cases h

theorem address_pushed {sp : UInt8} {values : List UInt8} (h : values.length ≤ sp.toNat) :
    ∀ access ∈ pushed sp values, 0x0101 ≤ access.address ∧ access.address ≤ 0x01FF := by
  intro access hmem
  have := sp.toNat_lt
  obtain ⟨i, hi, rfl⟩ := List.mem_mapIdx.1 hmem
  simp only [Access.address, UInt16.le_iff_toNat_le, UInt16.toNat_ofNat', UInt16.reduceToNat]
  omega

theorem address_pulled {sp : UInt8} {values : List UInt8} (h : sp.toNat + values.length ≤ 255) :
    ∀ access ∈ pulled sp values, 0x0101 ≤ access.address ∧ access.address ≤ 0x01FF := by
  intro access hmem
  obtain ⟨i, hi, rfl⟩ := List.mem_mapIdx.1 hmem
  simp only [Access.address, UInt16.le_iff_toNat_le, UInt16.toNat_ofNat', UInt16.reduceToNat]
  omega

theorem address_stackAccesses (c : Cpu β) (call : StackCall) :
    ∀ access ∈ c.stackAccesses call, 0x0101 ≤ access.address ∧ access.address ≤ 0x01FF := by
  cases call with
  | push values =>
    rw [stackAccesses, Registers.push]
    split
    · simp
    · rename_i hle
      simp only [Transaction.bind_eq, Transaction.accesses_bind, Transaction.pure_eq,
        Transaction.accesses_done, List.append_nil, accesses_writeDown (Nat.not_lt.1 hle)]
      exact address_pushed (Nat.not_lt.1 hle)
  | pull count =>
    rw [stackAccesses, Registers.pull]
    split
    · simp
    · rename_i hle
      simp only [Transaction.bind_eq, Transaction.accesses_bind, Transaction.pure_eq,
        Transaction.accesses_done, List.append_nil, accesses_readUp (Nat.not_lt.1 hle)]
      exact address_pulled (by rw [Vector.length_toList]; exact Nat.not_lt.1 hle)
  | write address value outside => simp [stackAccesses]

variable [StackMemory β]

theorem room_stack (c : Cpu β) : c.stack.room = c.registers.sp := by
  have := c.registers.sp.toNat_lt
  rw [BoundedStack.room, stack, length_stackBytes, ← UInt8.toNat_inj, UInt8.toNat_ofNat']
  omega

/-- Each call does to the byte list what the abstract call does, and gives the same answer. -/
theorem stackCall_refines (c : Cpu β) (call : StackCall) :
    (c.stackCall call).1 = (c.stack.call call).1 ∧
      (c.stackCall call).2.stack = (c.stack.call call).2 := by
  have hsp := c.registers.sp.toNat_lt
  have hlength : c.stack.bytes.length = 255 - c.registers.sp.toNat := length_stackBytes _ _
  cases call with
  | push values =>
    rw [stackCall, BoundedStack.call, BoundedStack.push]
    by_cases hlt : c.registers.sp.toNat < values.length
    · rw [push_of_lt hlt, dif_neg (by omega), room_stack]
      exact ⟨rfl, rfl⟩
    · have hle := Nat.not_lt.1 hlt
      rw [push_of_le hle, dif_pos (by omega)]
      exact ⟨rfl, BoundedStack.ext (stackBytes_writeDown hle c.bus)⟩
  | pull count =>
    rw [stackCall, BoundedStack.call, BoundedStack.pull]
    by_cases hlt : 255 < c.registers.sp.toNat + count
    · rw [pull_of_lt hlt, if_neg (by omega), room_stack]
      exact ⟨rfl, rfl⟩
    · have hle := Nat.not_lt.1 hlt
      obtain ⟨hvalues, hrest⟩ := stackBytes_readUp hle c.bus
      rw [pull_of_le hle, if_pos (by omega)]
      exact ⟨congrArg Except.ok hvalues, BoundedStack.ext hrest⟩
  | write address value outside =>
    refine ⟨rfl, BoundedStack.ext (stackBytes_write_of_forall_ne (fun i _ haddress => ?_) _ _)⟩
    have := i.toNat_lt
    rw [UInt16.lt_iff_toNat_lt, UInt16.le_iff_toNat_le, haddress, toNat_stackAddress] at outside
    simp only [UInt16.reduceToNat] at outside
    omega

/-- The pointer moves down by as many as are pushed, and never past zero. -/
theorem sp_push {c : Cpu β} {values : List UInt8} (h : (c.push values).1 = .ok ()) :
    (c.push values).2.registers.sp.toNat + values.length = c.registers.sp.toNat := by
  by_cases hlt : c.registers.sp.toNat < values.length
  · rw [push_of_lt hlt] at h
    cases h
  · have hle := Nat.not_lt.1 hlt
    have hsp := c.registers.sp.toNat_lt
    have hafter := ((writeDown c.registers.sp values).run c.bus).1.toNat_lt
    have hlength := congrArg List.length (stackBytes_writeDown hle c.bus)
    rw [length_stackBytes, List.foldl_flip_cons_eq_append', List.length_append, List.length_reverse,
      length_stackBytes] at hlength
    rw [push_of_le hle]
    show ((writeDown c.registers.sp values).run c.bus).1.toNat + values.length = _
    omega

omit [StackMemory β] in
/-- The pointer moves up by as many as are pulled, and never past 255. -/
theorem sp_pull {c : Cpu β} {count : Nat} {values : Vector UInt8 count}
    (h : (c.pull count).1 = .ok values) :
    (c.pull count).2.registers.sp.toNat = c.registers.sp.toNat + count := by
  by_cases hlt : 255 < c.registers.sp.toNat + count
  · rw [pull_of_lt hlt] at h
    cases h
  · have hle := Nat.not_lt.1 hlt
    rw [pull_of_le hle, ← toNat_pulled_sp hle]
    exact congrArg UInt8.toNat ((readUp_sp _ _).run c.bus)

/-- Over any sequence of pushes, pulls and writes elsewhere, the answers and the byte list are those
of a stack with room for 255 bytes, and the pointer is the room that is left. In every state that
comes about on the way, a call that is refused changes nothing, the pointer moves without wrapping,
and no call leaves `$0101` to `$01FF`. -/
theorem stack_is_a_bounded_list (c : Cpu β) (calls : List StackCall) :
    let made := inTurn stackCall c calls
    let abstractly := inTurn BoundedStack.call c.stack calls
    made.1 = abstractly.1 ∧ made.2.stack = abstractly.2 ∧ abstractly.2.room = made.2.registers.sp ∧
    (∀ call, (∀ fault, (made.2.stackCall call).1 = .error fault →
        (made.2.stackCall call).2 = made.2) ∧
      ∀ access ∈ made.2.stackAccesses call, 0x0101 ≤ access.address ∧ access.address ≤ 0x01FF) ∧
    (∀ values, (made.2.push values).1 = .ok () →
      (made.2.push values).2.registers.sp.toNat + values.length = made.2.registers.sp.toNat) ∧
    (∀ count values, (made.2.pull count).1 = .ok values →
      (made.2.pull count).2.registers.sp.toNat = made.2.registers.sp.toNat + count) := by
  intro made abstractly
  obtain ⟨hanswers, hstack⟩ := inTurn_view stackCall_refines c calls
  refine ⟨hanswers, hstack, hstack ▸ room_stack made.2,
    fun call => ⟨fun fault => stackCall_of_error, address_stackAccesses made.2 call⟩,
    fun values => sp_push, fun count values => sp_pull⟩

/-- With one byte on the stack two cannot be pulled; once two more are pushed, three can. -/
theorem stack_is_a_bounded_list_near_empty :
    let c : Cpu (MemoryMap Keyboard) := { registers := { sp := 0xFE }, bus := { device := {} } }
    let calls : List StackCall :=
      [.pull 2, .push [0x12, 0x34], .write 0xD000 0x41 (by decide), .pull 3]
    (inTurn stackCall c calls).1 =
        [.error (.stackUnderflow 0xFE 2), .ok [], .ok [], .ok [0x34, 0x12, 0]] ∧
      (inTurn stackCall c calls).2.registers.sp = 0xFF := by
  intro c calls
  obtain ⟨hanswers, -, hroom, -⟩ := stack_is_a_bounded_list c calls
  have hstart : c.stack = { bytes := [0], length_le := by decide } :=
    BoundedStack.ext (by simp [c, stack, stackBytes, StackMemory.byteAt])
  rw [hstart] at hanswers hroom
  exact ⟨hanswers, hroom.symm⟩

end Cpu

end Challenger1P
