import Challenger1P.Memory.Map

/-!
# The screen as text

Video RAM as 32 lines of 64 characters. A byte shows the character of its low seven bits; the codes
below the space show as spaces. So every character shown is an ASCII one from the space to `$7F`.
-/

namespace Challenger1P

/-- The character that a byte of video RAM shows. -/
def shownChar (value : UInt8) : Char :=
  let code := value &&& 0x7F
  if code < 0x20 then ' ' else Char.ofUInt8 code

namespace Screen

/-- The byte at a place on the screen. -/
def cell (s : Screen) (row : Fin 32) (column : Fin 64) : UInt8 :=
  have : 64 * row.val + column.val < 2048 := by omega
  s[64 * row.val + column.val]

/-- Every byte has its place on the screen. -/
theorem exists_cell_eq_get (i : Fin 2048) :
    ∃ row column, ∀ s : Screen, s.cell row column = s.get i := by
  refine ⟨⟨i / 64, by omega⟩, ⟨i % 64, by omega⟩, fun s => ?_⟩
  have hindex : 64 * (i.val / 64) + i.val % 64 = i.val := Nat.div_add_mod i.val 64
  simp only [cell, hindex]
  rfl

def line (s : Screen) (row : Fin 32) : List Char :=
  (List.finRange 64).map fun column => shownChar (s.cell row column)

/-- All lines of the screen, from the top. -/
def lines (s : Screen) : List (List Char) := (List.finRange 32).map s.line

end Screen

end Challenger1P
