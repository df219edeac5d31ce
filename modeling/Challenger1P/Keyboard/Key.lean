/-!
# Keys

What the user types, and where the keyboard has it. The keyboard is a matrix of eight rows of eight
contacts. A key closes one contact; typing a character that is printed above another also closes
the contact of the left shift key. Two keys, caps lock and control, are *modifiers*: they are held
beside whatever else is typed.
-/

namespace Challenger1P

/-- A key as the user means it. -/
inductive Key where
  /-- A character as typed, shift included. -/
  | char (c : Char)
  | capsLock
  | control
  | backspace
  | escape
  | enter
  deriving DecidableEq, Repr

structure Contact where
  row : Fin 8
  /-- The contact's bit in its row. -/
  mask : UInt8
  deriving DecidableEq, Repr

/-- What typing a key does to the matrix. -/
structure Stroke where
  contact : Contact
  /-- The left shift key is down as well. -/
  shifted : Bool := false
  /-- The key is held beside others. -/
  modifier : Bool := false
  deriving DecidableEq, Repr

def leftShift : Contact := ⟨0, 0x04⟩

/-- A key with a character on it, and the character above that, if there is one. -/
structure Keycap where
  contact : Contact
  plain : Char
  upper : Option Char
  deriving DecidableEq, Repr

/-- The keys of one row that have characters on them, from bit 7 of the row down. -/
def keycapRow (row : Fin 8) (legends : List (Char × Option Char)) : List Keycap :=
  legends.mapIdx fun i (plain, upper) => ⟨⟨row, (0x80 : UInt8) >>> UInt8.ofNat i⟩, plain, upper⟩

def keycaps : List Keycap :=
  keycapRow 1 [('q', none), ('a', none), ('z', none), (' ', none), ('/', some '?'),
    (';', some '+'), ('p', none)] ++
  keycapRow 2 [('x', none), ('c', none), ('v', none), ('b', none), ('n', none), ('m', none),
    (',', some '<')] ++
  keycapRow 3 [('s', none), ('d', none), ('f', none), ('g', none), ('h', none), ('j', none),
    ('k', none)] ++
  keycapRow 4 [('w', none), ('e', none), ('r', none), ('t', none), ('y', none), ('u', none),
    ('i', none)] ++
  keycapRow 5 [('.', some '>'), ('l', none), ('o', none)] ++
  keycapRow 6 [('8', some '('), ('9', some ')'), ('0', none), (':', some '*'), ('-', some '=')] ++
  keycapRow 7 [('1', some '!'), ('2', some '"'), ('3', some '#'), ('4', some '$'), ('5', some '%'),
    ('6', some '&'), ('7', some '\'')]

/-- How a keycap types a character, if it does. -/
def Keycap.stroke? (k : Keycap) (c : Char) : Option Stroke :=
  if c = k.plain then some { contact := k.contact }
  else if k.upper = some c then some { contact := k.contact, shifted := true }
  else none

/-- How the keyboard types a key, if it has it. A letter is one key in both cases. -/
def Key.stroke? : Key → Option Stroke
  | .char c => keycaps.findSome? (·.stroke? c.toLower)
  | .capsLock => some { contact := ⟨0, 0x01⟩, modifier := true }
  | .control => some { contact := ⟨0, 0x40⟩, modifier := true }
  | .backspace => some { contact := ⟨6, 0x04⟩ }
  | .escape => some { contact := ⟨0, 0x20⟩ }
  | .enter => some { contact := ⟨5, 0x08⟩ }

end Challenger1P
