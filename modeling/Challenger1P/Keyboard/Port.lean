import Challenger1P.Keyboard.Matrix

/-!
# The keyboard as it is stored

The device on the bus answers a read from eight bytes, one for each row, that it has ready. Beside
them it keeps which keys are down: the modifiers in a list, in the order in which they went down,
and at most one other key. Every event about a key the keyboard has ends with the rows built anew
(`rebuild`).

`keyboard` forgets the stored rows and the order of the modifiers.
-/

namespace Challenger1P

structure KeyboardPort where
  /-- The closed contacts of each row. -/
  rows : Vector UInt8 8
  selected : UInt8
  modifiers : List Key
  ordinary : Option Key
  deriving DecidableEq, Repr

namespace KeyboardPort

/-- Close one contact. -/
def close (rows : Vector UInt8 8) (c : Contact) : Vector UInt8 8 :=
  rows.set c.row.val (rows.get c.row ||| c.mask) c.row.isLt

/-- The rows with nothing closed in them but what the keys that are down close. -/
def contactRows (modifiers : List Key) (ordinary : Option Key) : Vector UInt8 8 :=
  let rows := (modifiers.filterMap Key.stroke?).foldl (fun rows s => close rows s.contact)
    (Vector.replicate 8 0)
  match ordinary.bind Key.stroke? with
  | some s => if s.shifted then close (close rows s.contact) leftShift else close rows s.contact
  | none => rows

def rebuild (p : KeyboardPort) : KeyboardPort :=
  { p with rows := contactRows p.modifiers p.ordinary }

/-- Nothing is down but caps lock, and no row is selected. -/
def powerOn : KeyboardPort :=
  rebuild { rows := Vector.replicate 8 0, selected := 0, modifiers := [.capsLock], ordinary := none }

/-- A key goes down. A modifier is put down once, however often it is pressed. -/
def press (p : KeyboardPort) (key : Key) : KeyboardPort :=
  match key.stroke? with
  | some s =>
    if s.modifier then
      rebuild { p with
        modifiers := if key ∈ p.modifiers then p.modifiers else p.modifiers ++ [key] }
    else rebuild { p with ordinary := some key }
  | none => p

/-- A key comes up. Letting go of an ordinary key other than the one held does nothing. -/
def release (p : KeyboardPort) (key : Key) : KeyboardPort :=
  match key.stroke? with
  | some s =>
    if s.modifier then rebuild { p with modifiers := p.modifiers.filter (· ≠ key) }
    else rebuild { p with ordinary := if p.ordinary = some key then none else p.ordinary }
  | none => p

def select (p : KeyboardPort) (rows : UInt8) : KeyboardPort := { p with selected := rows }

def apply (p : KeyboardPort) : KeyEvent → KeyboardPort
  | .press key => p.press key
  | .release key => p.release key
  | .select rows => p.select rows

/-- The selected rows, all in one byte. -/
def sense (p : KeyboardPort) : UInt8 :=
  ((List.finRange 8).filter fun row => p.selected &&& (1 : UInt8) <<< row.val.toUInt8 != 0).foldl
    (fun value row => value ||| p.rows.get row) 0

instance : Device KeyboardPort where
  read p := (p.sense, p)
  write := select

/-- The keyboard that this is. -/
def keyboard (p : KeyboardPort) : Keyboard where
  capsLock := .capsLock ∈ p.modifiers
  control := .control ∈ p.modifiers
  held := p.ordinary
  selected := p.selected

end KeyboardPort

end Challenger1P
