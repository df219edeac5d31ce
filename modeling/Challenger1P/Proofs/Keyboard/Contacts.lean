import Challenger1P.Keyboard.Matrix
import Challenger1P.Proofs.Bits

/-!
# What the contacts show

The program reads the keyboard as the contacts of some rows, all in one byte. Bit by bit this is a
question of whether some contact is closed (`testBit_seen`), so that what is known of one row at a
time is all that there is to know.

* `seen_or`: two masks together show what each of them shows.
* `sense_eq`: any mask shows what its rows show one at a time.
* `seen_contacts`: what a key shows in a row, and the shift key if it needs that.
* `rows_of_idle`: what the rows show when nothing but caps lock is down.
-/

namespace Challenger1P

theorem testBit_foldr_or {α : Type} (f : α → UInt8) (l : List α) (i : Nat) :
    (l.foldr (fun a value => f a ||| value) 0).toNat.testBit i =
      l.any fun a => (f a).toNat.testBit i := by
  induction l with
  | nil => exact Nat.zero_testBit i
  | cons a rest ih => rw [List.foldr_cons, UInt8.toNat_or, Nat.testBit_or, ih, List.any_cons]

theorem foldl_or {α : Type} (f : α → UInt8) (l : List α) (value : UInt8) :
    l.foldl (fun value a => value ||| f a) value =
      value ||| l.foldr (fun a value => f a ||| value) 0 := by
  induction l generalizing value with
  | nil => exact UInt8.or_zero.symm
  | cons a rest ih => rw [List.foldl_cons, List.foldr_cons, ih, UInt8.or_assoc]

/-! ## Lists of contacts -/

/-- The contacts of a list that are in the rows of a mask, as one byte. -/
def seen (contacts : List Contact) (rows : UInt8) : UInt8 :=
  (contacts.filter fun c => rows.toNat.testBit c.row).foldr (fun c value => c.mask ||| value) 0

theorem testBit_seen (contacts : List Contact) (rows : UInt8) (i : Nat) :
    (seen contacts rows).toNat.testBit i =
      contacts.any fun c => rows.toNat.testBit c.row && c.mask.toNat.testBit i := by
  rw [seen, testBit_foldr_or, List.any_filter]

theorem seen_append (left right : List Contact) (rows : UInt8) :
    seen (left ++ right) rows = seen left rows ||| seen right rows := by
  refine eq_of_testBit_toNat_eq fun i => ?_
  rw [UInt8.toNat_or, Nat.testBit_or, testBit_seen, testBit_seen, testBit_seen, List.any_append]

theorem seen_or (contacts : List Contact) (one two : UInt8) :
    seen contacts (one ||| two) = seen contacts one ||| seen contacts two := by
  refine eq_of_testBit_toNat_eq fun i => ?_
  rw [UInt8.toNat_or, Nat.testBit_or, testBit_seen, testBit_seen, testBit_seen, Bool.eq_iff_iff]
  simp only [UInt8.toNat_or, Nat.testBit_or, List.any_eq_true, Bool.or_eq_true, Bool.and_eq_true]
  grind

/-- The mask of a single row. -/
theorem testBit_row (row other : Fin 8) :
    ((1 : UInt8) <<< row.val.toUInt8).toNat.testBit other = decide (other = row) := by
  revert row other
  decide

theorem seen_cons (c : Contact) (rest : List Contact) (row : Fin 8) :
    seen (c :: rest) (1 <<< row.val.toUInt8) =
      (if c.row = row then c.mask else 0) ||| seen rest (1 <<< row.val.toUInt8) := by
  refine eq_of_testBit_toNat_eq fun i => ?_
  rw [UInt8.toNat_or, Nat.testBit_or, testBit_seen, testBit_seen, List.any_cons, testBit_row]
  split <;> simp_all

/-- Only which contacts a list has matters to what is seen of it. -/
theorem seen_congr {left right : List Contact} (h : ∀ c, c ∈ left ↔ c ∈ right) (rows : UInt8) :
    seen left rows = seen right rows := by
  refine eq_of_testBit_toNat_eq fun i => ?_
  rw [testBit_seen, testBit_seen, Bool.eq_iff_iff, List.any_eq_true, List.any_eq_true]
  simp only [h]

@[simp]
theorem seen_nil (rows : UInt8) : seen [] rows = 0 := rfl

/-! ## Keys -/

/-- The contacts that a key closes. -/
def Key.contacts (key : Key) : List Contact :=
  match key.stroke? with
  | some s => if s.shifted then [s.contact, leftShift] else [s.contact]
  | none => []

/-- The bits that a key itself sets in a row. -/
def Key.bits (key : Key) (row : Fin 8) : UInt8 :=
  match key.stroke? with
  | some s => if s.contact.row = row then s.contact.mask else 0
  | none => 0

/-- The key is typed with the shift key. -/
def Key.shifted (key : Key) : Bool := key.stroke?.any (·.shifted)

theorem seen_contacts (key : Key) (row : Fin 8) :
    seen key.contacts (1 <<< row.val.toUInt8) =
      key.bits row ||| if leftShift.row = row ∧ key.shifted then leftShift.mask else 0 := by
  unfold Key.contacts Key.bits Key.shifted
  cases key.stroke? with
  | none => simp
  | some s =>
    by_cases hs : s.shifted = true <;> simp [hs, seen_cons]

namespace Keyboard

variable (k : Keyboard)

theorem closed_eq : k.closed = k.keysDown.flatMap Key.contacts := by
  rw [closed]
  induction k.keysDown with
  | nil => rfl
  | cons key rest ih =>
    rw [List.filterMap_cons, List.flatMap_cons, ← ih, Key.contacts]
    cases key.stroke? <;> rfl

theorem get_rows (row : Fin 8) : k.rows.get row = seen k.closed (1 <<< row.val.toUInt8) :=
  Vector.getElem_ofFn row.isLt

theorem sense_or (one two : UInt8) : k.sense (one ||| two) = k.sense one ||| k.sense two :=
  seen_or k.closed one two

/-- What any mask shows is what its rows show one at a time. -/
theorem sense_eq (mask : UInt8) :
    k.sense mask =
      ((List.finRange 8).filter fun row : Fin 8 => mask.toNat.testBit row).foldr
        (fun row value => k.rows.get row ||| value) 0 := by
  refine eq_of_testBit_toNat_eq fun i => ?_
  show (seen k.closed mask).toNat.testBit i = _
  rw [testBit_seen, testBit_foldr_or, List.any_filter, Bool.eq_iff_iff]
  simp only [get_rows, testBit_seen, testBit_row, List.any_eq_true, Bool.and_eq_true,
    decide_eq_true_eq, List.mem_finRange, true_and]
  grind

/-- With no other key down, only the contact of caps lock can be closed. -/
theorem rows_of_idle (hheld : k.held = none) (hcontrol : k.control = false) :
    k.rows = #v[if k.capsLock then 0x01 else 0, 0, 0, 0, 0, 0, 0, 0] := by
  obtain ⟨capsLock, control, held, selected⟩ := k
  obtain rfl : held = none := hheld
  obtain rfl : control = false := hcontrol
  show ({ capsLock } : Keyboard).rows = #v[if capsLock then 0x01 else 0, 0, 0, 0, 0, 0, 0, 0]
  cases capsLock <;> decide

end Keyboard

end Challenger1P
