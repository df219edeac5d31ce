import Challenger1P.Keyboard.Key

/-!
# The keys of the user's own keyboard

A window reports keys by where they are on the user's keyboard. `PhysicalKey.key?` says which key of
the machine each stands for, by the characters printed on an American keyboard; the shift key picks
the upper of two.
-/

namespace Challenger1P

/-- A key of the user's keyboard. -/
inductive PhysicalKey where
  | letter (index : Fin 26)
  | digit (value : Fin 10)
  | apostrophe
  | semicolon
  | comma
  | period
  | slash
  | minus
  | equal
  | space
  | enter
  | backspace
  | escape
  | capsLock
  | leftControl
  | rightControl
  | leftShift
  | rightShift
  | f12
  /-- A key that stands for nothing. -/
  | other (name : String)
  deriving DecidableEq, Repr

def aboveDigits : Vector Char 10 := #v[')', '!', '@', '#', '$', '%', '^', '&', '*', '(']

namespace PhysicalKey

/-- The two characters on a key. -/
def characters? : PhysicalKey → Option (Char × Char)
  | .letter i => some (Char.ofNat ('a'.toNat + i), Char.ofNat ('A'.toNat + i))
  | .digit d => some (Char.ofNat ('0'.toNat + d), aboveDigits[d])
  | .apostrophe => some ('\'', '"')
  | .semicolon => some (';', ':')
  | .comma => some (',', '<')
  | .period => some ('.', '>')
  | .slash => some ('/', '?')
  | .minus => some ('-', '_')
  | .equal => some ('=', '+')
  | .space => some (' ', ' ')
  | _ => none

/-- The key of the machine that a key stands for when it goes down. -/
def key? (key : PhysicalKey) (shifted : Bool) : Option Key :=
  match key with
  | .enter => some .enter
  | .backspace => some .backspace
  | .escape => some .escape
  | .capsLock => some .capsLock
  | .leftControl | .rightControl => some .control
  | key => key.characters?.map fun (plain, upper) => .char (if shifted then upper else plain)

end PhysicalKey

end Challenger1P
