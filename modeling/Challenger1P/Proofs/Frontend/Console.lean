import Mathlib.Data.List.Induction
import Challenger1P.Frontend.Terminal

/-!
# A text console

What somebody sees of the characters that a program writes: a grid of cells and a cursor in it. A
character covers the cell under the cursor and the cursor moves on; what is not covered stays. At
the right edge the cursor waits, and only the next character takes it to the next row. Of the escape
sequences, `ESC [ H` takes the cursor to the top left, and the others, colours among them, change no
cell.

* `feedAll_line`, `feedAll_lines`: what characters without control codes cover, one line or many.
* `feedAll_heading`: of the heading only the letters are seen.
-/

namespace Challenger1P

/-- How far a console is in an escape sequence. -/
inductive Console.Reading where
  | text
  /-- The escape character has come. -/
  | escape
  /-- The escape character, a bracket and these parameters have come. -/
  | sequence (parameters : List Char)
  deriving DecidableEq, Repr

/-- A grid of cells, blank at first, with a cursor. -/
structure Console (rows columns : Nat) where
  cells : Fin rows → Fin columns → Char := fun _ _ => ' '
  row : Nat := 0
  /-- Equal to the number of columns when the cursor waits at the right edge. -/
  column : Nat := 0
  reading : Console.Reading := .text

namespace Console

variable {rows columns : Nat}

/-- The cells with a text in one row, from a column on. -/
def overlay (row column : Nat) (text : List Char) (cells : Fin rows → Fin columns → Char) :
    Fin rows → Fin columns → Char := fun i j =>
  if i.val = row ∧ column ≤ j.val then text[j.val - column]?.getD (cells i j) else cells i j

theorem overlay_nil (row column : Nat) (cells : Fin rows → Fin columns → Char) :
    overlay row column [] cells = cells := by
  funext i j
  simp [overlay]

theorem overlay_overlay (row column : Nat) (text rest : List Char)
    (cells : Fin rows → Fin columns → Char) :
    overlay row (column + text.length) rest (overlay row column text cells) =
      overlay row column (text ++ rest) cells := by
  funext i j
  simp only [overlay]
  by_cases hrow : i.val = row
  · rcases Nat.lt_or_ge j.val column with hbefore | hfrom
    · rw [if_neg (by omega), if_neg (by omega), if_neg (by omega)]
    · rw [if_pos (⟨hrow, hfrom⟩ : i.val = row ∧ column ≤ j.val),
        if_pos (⟨hrow, hfrom⟩ : i.val = row ∧ column ≤ j.val)]
      rcases Nat.lt_or_ge j.val (column + text.length) with hfirst | hrest
      · rw [if_neg (by omega), List.getElem?_append_left (by omega)]
      · rw [if_pos ⟨hrow, hrest⟩, List.getElem?_append_right (by omega), Nat.sub_sub,
          List.getElem?_eq_none (l := text) (by omega), Option.getD_none]
  · rw [if_neg (by omega), if_neg (by omega), if_neg (by omega)]

/-- Cover the cells from the cursor on, and move past them. -/
def cover (t : Console rows columns) (text : List Char) : Console rows columns :=
  { t with cells := overlay t.row t.column text t.cells, column := t.column + text.length }

/-- Go to the first column of the next row. The last row scrolls. -/
def newline (t : Console rows columns) : Console rows columns :=
  if t.row + 1 < rows then { t with row := t.row + 1, column := 0 }
  else
    { t with
      cells := fun i j => if h : i.val + 1 < rows then t.cells ⟨i.val + 1, h⟩ j else ' '
      column := 0 }

/-- Take one more character. -/
def feed (t : Console rows columns) (c : Char) : Console rows columns :=
  match t.reading with
  | .text =>
    if c = '\x1b' then { t with reading := .escape }
    else if c = '\n' then t.newline
    else if t.column < columns then t.cover [c]
    else t.newline.cover [c]
  | .escape => { t with reading := if c = '[' then .sequence [] else .text }
  | .sequence parameters =>
    if c.isDigit ∨ c = ';' then { t with reading := .sequence (parameters ++ [c]) }
    else if c = 'H' ∧ parameters = [] then { t with row := 0, column := 0, reading := .text }
    else { t with reading := .text }

/-- Take characters, one after the other. -/
def feedAll (t : Console rows columns) (text : List Char) : Console rows columns :=
  text.foldl feed t

theorem feedAll_append (t : Console rows columns) (text rest : List Char) :
    t.feedAll (text ++ rest) = (t.feedAll text).feedAll rest := List.foldl_append

/-! ## Lines -/

/-- A character that is no control code. -/
def Printable (c : Char) : Prop := c ≠ '\x1b' ∧ c ≠ '\n'

theorem cover_nil (t : Console rows columns) : t.cover [] = t := by
  rw [cover, overlay_nil]
  rfl

theorem cover_cover (t : Console rows columns) (text rest : List Char) :
    (t.cover text).cover rest = t.cover (text ++ rest) := by
  have hcolumn : t.column + text.length + rest.length = t.column + (text ++ rest).length := by
    rw [List.length_append, Nat.add_assoc]
  rw [cover, cover, cover, ← overlay_overlay, ← hcolumn]

theorem feedAll_line {t : Console rows columns} {line : List Char} (h : t.reading = .text)
    (hprintable : ∀ c ∈ line, Printable c) (hfits : t.column + line.length ≤ columns) :
    t.feedAll line = t.cover line := by
  induction line using List.reverseRecOn with
  | nil => exact (cover_nil t).symm
  | append_singleton line c ih =>
    obtain ⟨hline, hc⟩ := List.forall_mem_append.1 hprintable
    obtain ⟨hescape, hnewline⟩ := hc c (List.mem_singleton_self c)
    rw [List.length_append, List.length_singleton] at hfits
    have hcolumn : (t.cover line).column < columns := Nat.lt_of_succ_le hfits
    have hreading : (t.cover line).reading = .text := h
    have hfeed : (t.cover line).feed c = (t.cover line).cover [c] := by
      simp only [feed, hreading]
      rw [if_neg hescape, if_neg hnewline, if_pos hcolumn]
    rw [feedAll_append, ih hline (Nat.le_of_succ_le hfits), ← cover_cover]
    exact hfeed

/-- The cells with lines of text, from a row on. -/
def overlayLines (row : Nat) (lines : List (List Char)) (cells : Fin rows → Fin columns → Char) :
    Fin rows → Fin columns → Char := fun i j =>
  if row ≤ i.val then (lines[i.val - row]?.bind (·[j.val]?)).getD (cells i j) else cells i j

theorem overlayLines_nil (row : Nat) (cells : Fin rows → Fin columns → Char) :
    overlayLines row [] cells = cells := by
  funext i j
  simp [overlayLines]

theorem overlayLines_singleton (row : Nat) (line : List Char)
    (cells : Fin rows → Fin columns → Char) :
    overlayLines row [line] cells = overlay row 0 line cells := by
  funext i j
  simp only [overlay, overlayLines]
  rcases Nat.lt_trichotomy i.val row with hlt | heq | hgt
  · rw [if_neg (by omega), if_neg (by omega)]
  · rw [if_pos (Nat.le_of_eq heq.symm), if_pos ⟨heq, Nat.zero_le _⟩, heq, Nat.sub_self]
    rfl
  · rw [if_pos (Nat.le_of_lt hgt), if_neg (by omega),
      List.getElem?_eq_none (by rw [List.length_singleton]; omega)]
    rfl

theorem overlayLines_overlayLines (row : Nat) (lines rest : List (List Char))
    (cells : Fin rows → Fin columns → Char) :
    overlayLines (row + lines.length) rest (overlayLines row lines cells) =
      overlayLines row (lines ++ rest) cells := by
  funext i j
  simp only [overlayLines]
  rcases Nat.lt_or_ge i.val row with hbefore | hfrom
  · rw [if_neg (by omega), if_neg (by omega), if_neg (by omega)]
  · rw [if_pos hfrom, if_pos hfrom]
    rcases Nat.lt_or_ge i.val (row + lines.length) with hfirst | hrest
    · rw [if_neg (by omega), List.getElem?_append_left (by omega)]
    · rw [if_pos hrest, List.getElem?_append_right (by omega), Nat.sub_sub,
        List.getElem?_eq_none (l := lines) (by omega), Option.bind_none, Option.getD_none]

/-- Cover rows with lines, from the row of the cursor on, and go to the row below. -/
def coverLines (t : Console rows columns) (lines : List (List Char)) : Console rows columns :=
  { t with
    cells := overlayLines t.row lines t.cells
    row := t.row + lines.length
    column := 0 }

theorem coverLines_coverLines (t : Console rows columns) (lines rest : List (List Char)) :
    (t.coverLines lines).coverLines rest = t.coverLines (lines ++ rest) := by
  have hrow : t.row + lines.length + rest.length = t.row + (lines ++ rest).length := by
    rw [List.length_append, Nat.add_assoc]
  rw [coverLines, coverLines, coverLines, ← overlayLines_overlayLines, ← hrow]

/-- A newline behind a line that began at the left edge, if there is a row below. -/
theorem feed_newline {t : Console rows columns} {line : List Char} (h : t.reading = .text)
    (hcolumn : t.column = 0) (hrow : t.row + 1 < rows) :
    (t.cover line).feed '\n' = t.coverLines [line] := by
  have hreading : (t.cover line).reading = .text := h
  have hfeed : (t.cover line).feed '\n' = (t.cover line).newline := by
    simp only [feed, hreading]
    rfl
  rw [hfeed, newline, if_pos (by exact hrow), coverLines, overlayLines_singleton, cover, hcolumn]
  rfl

/-- Lines from the left edge on, each followed by a newline, if there is a row below them. -/
theorem feedAll_lines {t : Console rows columns} {lines : List (List Char)} (h : t.reading = .text)
    (hcolumn : t.column = 0) (hprintable : ∀ line ∈ lines, ∀ c ∈ line, Printable c)
    (hwidth : ∀ line ∈ lines, line.length ≤ columns) (hfits : t.row + lines.length < rows) :
    t.feedAll (lines.flatMap (· ++ ['\n'])) = t.coverLines lines := by
  induction lines generalizing t with
  | nil =>
    rw [coverLines, overlayLines_nil, ← hcolumn]
    rfl
  | cons line lines ih =>
    obtain ⟨hline, hlines⟩ := List.forall_mem_cons.1 hprintable
    obtain ⟨hlinewidth, hwidths⟩ := List.forall_mem_cons.1 hwidth
    rw [List.length_cons] at hfits
    have hfirst : t.feedAll line = t.cover line := feedAll_line h hline (by omega)
    have hnewline : (t.cover line).feedAll ['\n'] = t.coverLines [line] :=
      feed_newline h hcolumn (by omega)
    have hrow : t.row + 1 + lines.length < rows := by omega
    have hrest : (t.coverLines [line]).feedAll (lines.flatMap (· ++ ['\n'])) =
        (t.coverLines [line]).coverLines lines := ih h rfl hlines hwidths hrow
    rw [List.flatMap_cons, feedAll_append, feedAll_append, hfirst, hnewline, hrest,
      coverLines_coverLines]
    rfl

/-! ## Escape sequences -/

theorem feedAll_cursorHome {t : Console rows columns} (h : t.reading = .text) :
    t.feedAll cursorHome = { t with row := 0, column := 0 } := by
  obtain ⟨cells, row, column, reading⟩ := t
  obtain rfl : reading = .text := h
  rfl

/-- Of the heading only the letters are seen. -/
theorem feedAll_heading {t : Console rows columns} (h : t.reading = .text)
    (hfits : t.column + 10 ≤ columns) : t.feedAll heading = t.cover "SUPERBOARD".toList := by
  have hheading : heading = "\x1b[1;32m".toList ++ ("SUPERBOARD".toList ++ "\x1b[0m".toList) := by
    decide +kernel
  have hletters : ∀ c ∈ "SUPERBOARD".toList, Printable c := by simp [Printable]
  have hcolours : ∀ u : Console rows columns, u.reading = .text →
      u.feedAll "\x1b[1;32m".toList = u ∧ u.feedAll "\x1b[0m".toList = u := by
    rintro ⟨cells, row, column, reading⟩ rfl
    exact ⟨rfl, rfl⟩
  rw [hheading, feedAll_append, (hcolours t h).1, feedAll_append, feedAll_line h hletters hfits]
  exact (hcolours (t.cover _) h).2

end Console

end Challenger1P
