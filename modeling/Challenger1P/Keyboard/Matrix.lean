import Challenger1P.Keyboard.Key
import Challenger1P.Memory.Map

/-!
# The keyboard

What is held down: the two modifiers, and at most one other key, the last one typed and not yet let
go. The program selects rows by writing a mask to the keyboard, and reads back the contacts
that are closed in any of them.

`rows` is what it reads with one row selected at a time. They are computed here whenever they are
read; `KeyboardPort` has them in store, and is kept equal to this.
-/

namespace Challenger1P

/-- The state of the keyboard. Caps lock is down when the machine is switched on. -/
structure Keyboard where
  capsLock : Bool := true
  control : Bool := false
  /-- The ordinary key that is down. -/
  held : Option Key := none
  /-- The rows that the program sees. -/
  selected : UInt8 := 0
  deriving DecidableEq, Repr, Inhabited

inductive KeyEvent where
  | press (key : Key)
  | release (key : Key)
  /-- The program selects rows. -/
  | select (rows : UInt8)
  deriving DecidableEq, Repr

namespace Keyboard

/-- A key goes down. An ordinary key takes the place of the one before; a key that the keyboard
does not have does nothing. -/
def press (k : Keyboard) : Key → Keyboard
  | .capsLock => { k with capsLock := true }
  | .control => { k with control := true }
  | key => if key.stroke?.isSome then { k with held := some key } else k

/-- A key comes up. Letting go of an ordinary key other than the one held does nothing. -/
def release (k : Keyboard) : Key → Keyboard
  | .capsLock => { k with capsLock := false }
  | .control => { k with control := false }
  | key => if k.held = some key then { k with held := none } else k

/-- Select the rows that reading sees. -/
def select (k : Keyboard) (rows : UInt8) : Keyboard := { k with selected := rows }

def apply (k : Keyboard) : KeyEvent → Keyboard
  | .press key => k.press key
  | .release key => k.release key
  | .select rows => k.select rows

def keysDown (k : Keyboard) : List Key :=
  (if k.capsLock then [.capsLock] else []) ++ (if k.control then [.control] else []) ++
    k.held.toList

def closed (k : Keyboard) : List Contact :=
  (k.keysDown.filterMap Key.stroke?).flatMap fun s =>
    if s.shifted then [s.contact, leftShift] else [s.contact]

/-- The contacts that are closed in the rows of a mask, as one byte. -/
def sense (k : Keyboard) (rows : UInt8) : UInt8 :=
  (k.closed.filter fun c => rows.toNat.testBit c.row).foldr (fun c seen => c.mask ||| seen) 0

/-- The closed contacts of each row. -/
def rows (k : Keyboard) : Vector UInt8 8 := Vector.ofFn fun row => k.sense (1 <<< row.val.toUInt8)

instance : Device Keyboard where
  read k := (k.sense k.selected, k)
  write := select

end Keyboard

end Challenger1P
