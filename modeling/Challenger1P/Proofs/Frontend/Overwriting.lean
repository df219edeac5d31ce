import Mathlib.Data.List.DropRight
import Challenger1P.Proofs.Frontend.Console

/-!
# Frames over frames

A frame goes over the one before it, and nothing in between clears the console. The lines of a frame
are written without the blanks at their ends, so what an earlier frame has in those places stays: in
each cell is the character of the last screen whose line comes up to there (`remaining`). The rows
below the heading show the last screen as it is only if nothing is left in the cells that it does
not come up to.

* `getElem?_trimBlanks`: how far a line is written.
* `cells_frames`: what many frames leave on a console.
-/

namespace Challenger1P

/-! ## How far a line is written -/

theorem trimBlanks_concat (line : List Char) (c : Char) :
    trimBlanks (line ++ [c]) = if c = ' ' then trimBlanks line else line ++ [c] := by
  split
  · exact List.rdropWhile_concat_pos (p := (· = ' ')) _ _ (by simpa)
  · exact List.rdropWhile_concat_neg (p := (· = ' ')) _ _ (by simpa)

theorem trimBlanks_isPrefix (line : List Char) : trimBlanks line <+: line :=
  List.rdropWhile_prefix (· = ' ') line

/-- A line is written up to its last character that is no blank. -/
theorem getElem?_trimBlanks (text : List Char) (i : Nat) :
    (trimBlanks text)[i]? = if (text.drop i).any (· != ' ') then text[i]? else none := by
  induction text using List.reverseRecOn with
  | nil => simp [trimBlanks]
  | append_singleton text c ih =>
    rw [trimBlanks_concat, List.drop_append, List.any_append]
    rcases Nat.lt_or_ge i text.length with hlt | hge
    · have hfirst : [c].drop (i - text.length) = [c] := by
        rw [Nat.sub_eq_zero_of_le (Nat.le_of_lt hlt)]
        rfl
      rw [hfirst, List.getElem?_append_left hlt]
      by_cases hc : c = ' '
      · rw [if_pos hc, ih, hc]
        simp
      · rw [if_neg hc, if_pos (by simp [hc]), List.getElem?_append_left hlt]
    · rw [List.drop_eq_nil_of_le hge] at ih ⊢
      by_cases hc : c = ' '
      · rw [if_pos hc, ih, hc]
        cases i - text.length <;> simp
      · rw [if_neg hc]
        rcases Nat.eq_or_lt_of_le hge with heq | hgt
        · simp [heq, hc]
        · rw [List.drop_eq_nil_of_le (by simp; omega), List.getElem?_eq_none (by simp; omega)]
          rfl

/-! ## The lines of a screen -/

theorem printable_shownChar (value : UInt8) : Console.Printable (shownChar value) := by
  have h : ∀ n : Fin 256, shownChar (UInt8.ofNat n.val) ≠ '\x1b' ∧
      shownChar (UInt8.ofNat n.val) ≠ '\n' := by decide +kernel
  simpa [Console.Printable] using h ⟨value.toNat, value.toNat_lt⟩

namespace Screen

variable {s : Screen} {row : Fin 32} {column : Fin 64}

theorem length_line (s : Screen) (row : Fin 32) : (s.line row).length = 64 := by
  rw [line, List.length_map, List.length_finRange]

theorem length_lines (s : Screen) : s.lines.length = 32 := by
  rw [lines, List.length_map, List.length_finRange]

theorem getElem?_line (s : Screen) (row : Fin 32) (column : Fin 64) :
    (s.line row)[column.val]? = some (shownChar (s.cell row column)) := by
  simp [line]

theorem printable_written {line : List Char} (h : line ∈ s.lines.map trimBlanks) :
    line.length ≤ 64 ∧ ∀ c ∈ line, Console.Printable c := by
  obtain ⟨whole, hwhole, rfl⟩ := List.mem_map.1 h
  obtain ⟨row, -, rfl⟩ := List.mem_map.1 hwhole
  have hwritten := trimBlanks_isPrefix (s.line row)
  refine ⟨hwritten.length_le.trans_eq (s.length_line row), fun c hc => ?_⟩
  obtain ⟨column, -, rfl⟩ := List.mem_map.1 (hwritten.subset hc)
  exact printable_shownChar _

theorem getElem?_lines (s : Screen) (row : Fin 32) : s.lines[row.val]? = some (s.line row) := by
  simp [lines]

/-- The line comes up to the column: from there on, not all of it is blank. -/
def reaches (s : Screen) (row : Fin 32) (column : Fin 64) : Bool :=
  ((s.line row).drop column).any (· != ' ')

theorem shownChar_of_not_reaches (h : s.reaches row column = false) :
    shownChar (s.cell row column) = ' ' := by
  have hmem : shownChar (s.cell row column) ∈ (s.line row).drop column :=
    List.mem_of_getElem? (i := 0) (by rw [List.getElem?_drop]; exact getElem?_line s row column)
  simpa using List.any_eq_false.1 h _ hmem

theorem getElem?_written (s : Screen) (row : Fin 32) (column : Fin 64) :
    (s.lines.map trimBlanks)[row.val]?.bind (·[column.val]?) =
      if s.reaches row column then some (shownChar (s.cell row column)) else none := by
  rw [List.getElem?_map, getElem?_lines, Option.map_some, Option.bind_some, getElem?_trimBlanks,
    getElem?_line]
  rfl

/-- What is left of many screens in a cell: the character of the last one whose line comes up to
there. -/
def remaining (screens : List Screen) (row : Fin 32) (column : Fin 64) : Char :=
  (screens.filter (·.reaches row column)).getLast?.elim ' ' fun s => shownChar (s.cell row column)

theorem remaining_concat (screens : List Screen) (s : Screen) (row : Fin 32) (column : Fin 64) :
    remaining (screens ++ [s]) row column =
      if s.reaches row column then shownChar (s.cell row column)
      else remaining screens row column := by
  rw [remaining, List.filter_append, List.filter_singleton]
  cases s.reaches row column
  · rw [cond_false, List.append_nil]
    rfl
  · rw [cond_true, List.getLast?_concat]
    rfl

end Screen

/-! ## Frames on a console -/

namespace Console

variable {rows columns : Nat}

/-- Large enough for a frame: the heading, 32 lines and the row to which the last newline goes. -/
def Large (rows columns : Nat) : Prop := 33 < rows ∧ 64 ≤ columns

instance : Decidable (Large rows columns) := inferInstanceAs (Decidable (_ ∧ _))

/-- What the first row shows. -/
def headingCell (t : Console rows columns) (h : Large rows columns) (column : Fin columns) : Char :=
  t.cells ⟨0, Nat.zero_lt_of_lt h.1⟩ column

/-- What the rows below it show in the place of a screen cell. -/
def screenCell (t : Console rows columns) (h : Large rows columns) (row : Fin 32)
    (column : Fin 64) : Char :=
  t.cells (row.succ.castLE (Nat.le_of_lt h.1)) (column.castLE h.2)

variable {t : Console rows columns} {hlarge : Large rows columns}

/-- The heading goes into the first row, and the lines of the screen below it. -/
theorem feedAll_frame (h : t.reading = .text) (hlarge : Large rows columns) (s : Screen) :
    t.feedAll s.frame =
      { t with row := 0 }.coverLines ("SUPERBOARD".toList :: s.lines.map trimBlanks) := by
  obtain ⟨hrows, hcolumns⟩ := hlarge
  have hframe : s.frame = cursorHome ++ (heading ++ (['\n'] ++
      (s.lines.map trimBlanks).flatMap (· ++ ['\n']))) := by
    rw [Screen.frame, List.append_assoc, List.flatMap_map]
    rfl
  let home : Console rows columns := { t with row := 0, column := 0 }
  have hheading : home.feedAll heading = home.cover "SUPERBOARD".toList :=
    feedAll_heading h (by show 0 + 10 ≤ columns; omega)
  have hnewline : (home.cover "SUPERBOARD".toList).feedAll ['\n'] =
      home.coverLines ["SUPERBOARD".toList] := feed_newline h rfl (by show 0 + 1 < rows; omega)
  have hlines : (home.coverLines ["SUPERBOARD".toList]).feedAll
      ((s.lines.map trimBlanks).flatMap (· ++ ['\n'])) =
      (home.coverLines ["SUPERBOARD".toList]).coverLines (s.lines.map trimBlanks) := by
    refine feedAll_lines h rfl ?_ ?_ ?_
    · exact fun line hline => (Screen.printable_written hline).2
    · exact fun line hline => (Screen.printable_written hline).1.trans hcolumns
    · show 0 + 1 + (s.lines.map trimBlanks).length < rows
      rw [List.length_map, Screen.length_lines]
      exact hrows
  rw [hframe, feedAll_append, feedAll_cursorHome h, feedAll_append, hheading, feedAll_append,
    hnewline, hlines, coverLines_coverLines]
  rfl

theorem headingCell_frame (h : t.reading = .text) (s : Screen) (column : Fin columns) :
    (t.feedAll s.frame).headingCell hlarge column =
      "SUPERBOARD".toList[column.val]?.getD (t.headingCell hlarge column) := by
  rw [feedAll_frame h hlarge]
  rfl

theorem screenCell_frame (h : t.reading = .text) (s : Screen) (row : Fin 32) (column : Fin 64) :
    (t.feedAll s.frame).screenCell hlarge row column =
      if s.reaches row column then shownChar (s.cell row column)
      else t.screenCell hlarge row column := by
  rw [feedAll_frame h hlarge]
  show overlayLines 0 ("SUPERBOARD".toList :: s.lines.map trimBlanks) t.cells _ _ = _
  rw [overlayLines, if_pos (Nat.zero_le _)]
  show ((s.lines.map trimBlanks)[row.val]?.bind (·[column.val]?)).getD _ = _
  rw [s.getElem?_written]
  split <;> rfl

/-- What frames leave on a blank console. -/
theorem cells_frames (hlarge : Large rows columns) (screens : List Screen) :
    let shown := ({} : Console rows columns).feedAll (screens.flatMap Screen.frame)
    shown.reading = .text ∧
    (∀ column, "SUPERBOARD".toList[column.val]? = none → shown.headingCell hlarge column = ' ') ∧
    ∀ row column, shown.screenCell hlarge row column = Screen.remaining screens row column := by
  induction screens using List.reverseRecOn with
  | nil => exact ⟨rfl, fun column _ => rfl, fun row column => rfl⟩
  | append_singleton screens s ih =>
    obtain ⟨hreading, hheading, hcells⟩ := ih
    rw [List.flatMap_append, List.flatMap_singleton, feedAll_append]
    refine ⟨?_, fun column hcolumn => ?_, fun row column => ?_⟩
    · rw [feedAll_frame hreading hlarge]
      exact hreading
    · rw [headingCell_frame hreading, hcolumn, hheading column hcolumn]
      rfl
    · rw [screenCell_frame hreading, hcells, Screen.remaining_concat]

end Console

theorem Terminal.toList_text_displays (screens : List Screen) :
    (screens.foldl Host.display ({} : Terminal)).text.toList = screens.flatMap Screen.frame := by
  have h : screens.foldl Host.display ({} : Terminal) =
      { text := String.ofList (screens.flatMap Screen.frame) } := by
    induction screens using List.reverseRecOn with
    | nil => rfl
    | append_singleton screens s ih =>
      rw [List.foldl_append, ih, List.flatMap_append, List.flatMap_singleton, String.ofList_append]
      rfl
  rw [h, String.toList_ofList]

/-- A blank console, once it has taken what is written to a terminal without a limit for these
screens. -/
def Console.afterScreens (rows columns : Nat) (screens : List Screen) : Console rows columns :=
  feedAll {} (screens.foldl Host.display ({} : Terminal)).text.toList

theorem Console.afterScreens_eq (rows columns : Nat) (screens : List Screen) :
    afterScreens rows columns screens = feedAll {} (screens.flatMap Screen.frame) := by
  rw [afterScreens, Terminal.toList_text_displays]

/-- Screens on a terminal, shown on a console that is large enough. The first row has the heading.
Below it, each cell has the character of the last screen whose line comes up to there, and so the
rows show the last screen as it is exactly if nothing is left of the others in the cells that its
lines do not come up to. -/
theorem frames_overwrite_as_far_as_their_lines {rows columns : Nat}
    (hlarge : Console.Large rows columns) (before : List Screen) (last : Screen) :
    let shown := Console.afterScreens rows columns (before ++ [last])
    (∀ column, shown.headingCell hlarge column = "SUPERBOARD".toList[column.val]?.getD ' ') ∧
    (∀ row column, shown.screenCell hlarge row column =
      Screen.remaining (before ++ [last]) row column) ∧
    ((∀ row, (List.finRange 64).map (shown.screenCell hlarge row) = last.line row) ↔
      ∀ row column, last.reaches row column = false →
        Screen.remaining before row column = ' ') := by
  intro shown
  have hshown : shown = Console.feedAll {} ((before ++ [last]).flatMap Screen.frame) :=
    Console.afterScreens_eq rows columns _
  have hcells : ∀ row column, shown.screenCell hlarge row column =
      Screen.remaining (before ++ [last]) row column := by
    rw [hshown]
    exact (Console.cells_frames hlarge _).2.2
  refine ⟨fun column => ?_, hcells, ?_⟩
  · obtain ⟨hreading, hblank, -⟩ := Console.cells_frames hlarge before
    rw [hshown, List.flatMap_append, List.flatMap_singleton, Console.feedAll_append,
      Console.headingCell_frame hreading]
    cases hcolumn : "SUPERBOARD".toList[column.val]? with
    | none => rw [hblank column hcolumn]
    | some c => rfl
  · have hline : ∀ row, (List.finRange 64).map (shown.screenCell hlarge row) = last.line row ↔
        ∀ column, shown.screenCell hlarge row column = shownChar (last.cell row column) :=
      fun row => by
        rw [Screen.line, List.map_inj_left]
        simp
    simp only [hline, hcells, Screen.remaining_concat]
    refine forall_congr' fun row => forall_congr' fun column => ?_
    cases hreaches : last.reaches row column with
    | true => simp
    | false => simp [Screen.shownChar_of_not_reaches hreaches]

/-- The same screen twice, on the smallest console that is large enough. -/
theorem frames_overwrite_as_far_as_their_lines_when_repeated :
    ∃ hlarge : Console.Large 34 64,
      let s : Screen := ((Vector.replicate 2048 0).set 0 0x4F).set 1 0x4B
      ∀ row, (List.finRange 64).map ((Console.afterScreens 34 64 [s, s]).screenCell hlarge row) =
        s.line row := by
  have hlarge : Console.Large 34 64 := by decide
  refine ⟨hlarge, ?_⟩
  intro s
  obtain ⟨-, -, hiff⟩ := frames_overwrite_as_far_as_their_lines hlarge [s] s
  refine hiff.2 fun row column hreaches => ?_
  exact (Screen.remaining_concat [] s row column).trans (by rw [hreaches]; rfl)

/-- A word in the first line, and then a blank screen: the console still shows the word. -/
theorem word_shows_through_a_blank_frame :
    ∃ hlarge : Console.Large 34 64,
      let ready : Screen :=
        (((((Vector.replicate 2048 0).set 0 0x52).set 1 0x45).set 2 0x41).set 3 0x44).set 4 0x59
      let blank : Screen := Vector.replicate 2048 0
      let shown := Console.afterScreens 34 64 [ready, blank]
      [0, 1, 2, 3, 4].map (shown.screenCell hlarge 0) = "READY".toList ∧
        blank.line 0 = List.replicate 64 ' ' := by
  have hlarge : Console.Large 34 64 := by decide
  refine ⟨hlarge, ?_⟩
  intro ready blank shown
  have hcells : shown.screenCell hlarge 0 = Screen.remaining [ready, blank] 0 := by
    funext column
    rw [← (Console.cells_frames hlarge [ready, blank]).2.2 0 column, ← Console.afterScreens_eq]
  rw [hcells]
  decide +kernel

end Challenger1P
