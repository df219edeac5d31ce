import Challenger1P.FileTree
import Challenger1P.Screen.Text

/-!
# Glyphs

The shape of each character: eight rows of eight pixels, a row to a byte, its leftmost pixel in the
highest bit. Shapes come from a character ROM, which holds eight bytes a code in the order of the
codes. Where there is none, a character that is not blank is drawn as a box.

A character ROM of the machine has 2048 bytes, one shape for each code (`loadCharacterRom`). A
shorter one has shapes for the lower codes only (`Glyphs.row?`).
-/

namespace Challenger1P

/-- The size of a character ROM with a shape for each code. -/
def characterRomSize : Nat := 2048

inductive CharacterRomError where
  | unreadable (path : String) (reason : ReadFailure)
  | wrongSize (path : String) (actual : Nat)
  deriving DecidableEq, Repr

def CharacterRomError.message : CharacterRomError → String
  | .unreadable path reason => s!"failed to read character ROM {path}: {reason.message}"
  | .wrongSize path actual =>
    s!"character ROM {path} is {actual} bytes, expected {characterRomSize}"

def loadCharacterRom (read : FileReader) (path : String) :
    Except CharacterRomError (Vector UInt8 characterRomSize) :=
  match read path with
  | .error reason => .error (.unreadable path reason)
  | .ok contents =>
    if h : contents.length = characterRomSize then .ok ⟨contents.toArray, by simpa using h⟩
    else .error (.wrongSize path contents.length)

/-- Where the shapes of characters come from. -/
inductive Glyphs where
  | rom (contents : Array UInt8)
  /-- Boxes in place of shapes. -/
  | boxes
  deriving DecidableEq, Repr

namespace Glyphs

/-- The pixels of a box's row. -/
def boxRow (y : Fin 8) : UInt8 := if y.val = 0 ∨ y.val = 7 then 0xFF else 0x81

/-- One row of the shape of a code, if there is one. -/
def row? (glyphs : Glyphs) (code : UInt8) (y : Fin 8) : Option UInt8 :=
  match glyphs with
  | .rom contents => contents[8 * code.toNat + y]?
  | .boxes => some (if shownChar code = ' ' then 0 else boxRow y)

/-- Whether there is a whole shape for a code. -/
def has (glyphs : Glyphs) (code : UInt8) : Bool :=
  match glyphs with
  | .rom contents => 8 * code.toNat + 7 < contents.size
  | .boxes => true

theorem isSome_row? {glyphs : Glyphs} {code : UInt8} (h : glyphs.has code) (y : Fin 8) :
    (glyphs.row? code y).isSome := by
  cases glyphs with
  | rom contents =>
    have : 8 * code.toNat + 7 < contents.size := by simpa [has] using h
    simpa [row?] using (by omega : 8 * code.toNat + y < contents.size)
  | boxes => rfl

end Glyphs

end Challenger1P
