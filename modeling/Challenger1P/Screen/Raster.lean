import Challenger1P.Screen.Glyphs

/-!
# The screen as pixels

Video RAM drawn as 256 lines of 512 pixels, each place of the screen a square of eight by eight. A
picture is an array of colours, line after line. Drawing paints over the pixels of the screen
whatever they were, and leaves those that the array has beyond them.
-/

namespace Challenger1P

namespace Picture

/-- Pixels in a line. -/
def width : Nat := 512

/-- Lines of pixels. -/
def height : Nat := 256

def size : Nat := 131072

/-- The colour of characters. -/
def foreground : UInt32 := 0xF0F0F0

/-- The colour behind them. -/
def background : UInt32 := 0

def blank : Array UInt32 := Array.replicate size background

end Picture

namespace Screen

/-- The colour of one pixel, by its number in the picture. A shape that is missing is blank. -/
def pixel (s : Screen) (glyphs : Glyphs) (i : Fin Picture.size) : UInt32 :=
  have : i.val < 131072 := i.isLt
  let code := s.cell ⟨i / 512 / 8, by omega⟩ ⟨i % 512 / 8, by omega⟩
  let row := (glyphs.row? code ⟨i / 512 % 8, by omega⟩).getD 0
  if row.toNat.testBit (7 - i % 8) then Picture.foreground else Picture.background

/-- Whether there is a shape for every code on the screen. -/
def covered (s : Screen) (glyphs : Glyphs) : Bool := s.toArray.all glyphs.has

/-- Draw the screen over a picture. That needs a picture with room for it, and a shape for
everything on it. -/
def draw? (s : Screen) (glyphs : Glyphs) (picture : Array UInt32) : Option (Array UInt32) :=
  if Picture.size ≤ picture.size ∧ s.covered glyphs then
    some (picture.mapIdx fun i old =>
      if h : i < Picture.size then s.pixel glyphs ⟨i, h⟩ else old)
  else none

end Screen

end Challenger1P
