import Mathlib.Data.List.Forall2
import Challenger1P.Proofs.Frontend.Overwriting

/-!
# Reading frames back

What is written to a terminal can be read back. The heading says where a frame begins and the
newlines how long it is, so the text comes apart into frames in one way only; and the lines of a
frame lose nothing but blanks at their ends, so they are the lines of the screen once they are
brought back to its width.

* `eq_of_flatten_eq`: a text is cut into blocks of the form of a frame in at most one way.
* `readBack_frame`: what is read back from a frame.
* `lines_eq_iff`: screens with the same lines show the same characters.
-/

namespace Challenger1P

/-! ## Lines of a text -/

theorem count_newline_lines {lines : List (List Char)} (h : ∀ line ∈ lines, '\n' ∉ line) :
    (lines.flatMap (· ++ ['\n'])).count '\n' = lines.length := by
  induction lines with
  | nil => rfl
  | cons line lines ih =>
    obtain ⟨hline, hlines⟩ := List.forall_mem_cons.1 h
    rw [List.flatMap_cons, List.count_append, List.count_append, List.count_eq_zero_of_not_mem hline,
      ih hlines, List.length_cons, List.count_singleton_self]
    omega

theorem splitOn_newline {line : List Char} (h : '\n' ∉ line) (rest : List Char) :
    (line ++ '\n' :: rest).splitOn '\n' = line :: rest.splitOn '\n' := by
  refine List.splitOnP_append_cons_of_forall_mem (p := (· == '\n')) (fun c hc => ?_) '\n'
    (beq_self_eq_true '\n') rest
  exact beq_eq_false_iff_ne.2 (ne_of_mem_of_not_mem hc h)

theorem splitOn_newline_lines {lines : List (List Char)} (h : ∀ line ∈ lines, '\n' ∉ line) :
    (lines.flatMap (· ++ ['\n'])).splitOn '\n' = lines ++ [[]] := by
  induction lines with
  | nil => rfl
  | cons line lines ih =>
    obtain ⟨hline, hlines⟩ := List.forall_mem_cons.1 h
    rw [List.flatMap_cons, List.append_assoc]
    exact (splitOn_newline hline _).trans (congrArg (line :: ·) (ih hlines))

/-- Two texts that are the same have the same first line. -/
theorem line_eq_of_append_eq {line line' rest rest' : List Char} (h : '\n' ∉ line)
    (h' : '\n' ∉ line') (heq : line ++ '\n' :: rest = line' ++ '\n' :: rest') : line = line' := by
  have hsplit := congrArg (List.splitOn '\n') heq
  rw [splitOn_newline h, splitOn_newline h'] at hsplit
  exact (List.cons.inj hsplit).1

/-! ## Blocks of the form of a frame -/

/-- The first line of a frame. -/
def topLine : List Char := cursorHome ++ heading

theorem newline_not_mem_topLine : '\n' ∉ topLine := by decide +kernel

/-- A text of the form of a frame: it begins with the first line of one, and has 33 newlines. -/
def IsFrame (block : List Char) : Prop := topLine ++ ['\n'] <+: block ∧ block.count '\n' = 33

/-- Behind a frame is nothing, or another one. -/
theorem flatten_cases {blocks : List (List Char)} (h : ∀ block ∈ blocks, IsFrame block) :
    blocks.flatten = [] ∨ ∃ rest, blocks.flatten = topLine ++ '\n' :: rest := by
  cases blocks with
  | nil => exact Or.inl rfl
  | cons block blocks =>
    obtain ⟨rest, rfl⟩ := (h _ List.mem_cons_self).1
    exact Or.inr ⟨rest ++ blocks.flatten, by simp⟩

/-- No part of a line can go from one frame to the one before it. -/
theorem eq_nil_of_flatten_eq {blocks blocks' : List (List Char)} {text : List Char}
    (h : ∀ block ∈ blocks, IsFrame block) (h' : ∀ block ∈ blocks', IsFrame block)
    (htext : '\n' ∉ text) (heq : blocks.flatten = text ++ blocks'.flatten) : text = [] := by
  rcases flatten_cases h with hnil | ⟨rest, hrest⟩
  · rw [hnil] at heq
    exact (List.append_eq_nil_iff.1 heq.symm).1
  · rw [hrest] at heq
    rcases flatten_cases h' with hnil | ⟨rest', hrest'⟩
    · rw [hnil, List.append_nil] at heq
      exact absurd (heq ▸ List.mem_append_right topLine List.mem_cons_self) htext
    · rw [hrest', ← List.append_assoc] at heq
      have hlines : '\n' ∉ text ++ topLine := by
        rw [List.mem_append]
        exact not_or_intro htext newline_not_mem_topLine
      have htop := line_eq_of_append_eq newline_not_mem_topLine hlines heq
      exact List.append_left_eq_self.1 htop.symm

theorem IsFrame.ne_nil {block : List Char} (h : IsFrame block) : block ≠ [] := by
  rintro rfl
  exact absurd h.2 (by decide)

theorem IsFrame.newline_not_mem {block text : List Char} (h : IsFrame block)
    (h' : IsFrame (block ++ text)) : '\n' ∉ text := by
  have hcount := h'.2
  rw [List.count_append, h.2] at hcount
  exact List.count_eq_zero.1 (by omega)

/-- A text is cut into blocks of the form of a frame in at most one way. -/
theorem eq_of_flatten_eq {blocks blocks' : List (List Char)}
    (h : ∀ block ∈ blocks, IsFrame block) (h' : ∀ block ∈ blocks', IsFrame block)
    (heq : blocks.flatten = blocks'.flatten) : blocks = blocks' := by
  induction blocks generalizing blocks' with
  | nil =>
    cases blocks' with
    | nil => rfl
    | cons block' blocks' =>
      exact absurd (List.append_eq_nil_iff.1 heq.symm).1 (h' block' List.mem_cons_self).ne_nil
  | cons block blocks ih =>
    obtain ⟨hblock, hblocks⟩ := List.forall_mem_cons.1 h
    cases blocks' with
    | nil => exact absurd (List.append_eq_nil_iff.1 heq).1 hblock.ne_nil
    | cons block' blocks' =>
      obtain ⟨hblock', hblocks'⟩ := List.forall_mem_cons.1 h'
      -- The shorter of the two first blocks is the other one up to a text without newlines.
      rcases List.append_eq_append_iff.1 heq with ⟨text, rfl, hrest⟩ | ⟨text, rfl, hrest⟩
      · obtain rfl : text = [] :=
          eq_nil_of_flatten_eq hblocks hblocks' (hblock.newline_not_mem hblock') hrest
        rw [List.append_nil, ih hblocks hblocks' hrest]
      · obtain rfl : text = [] :=
          eq_nil_of_flatten_eq hblocks' hblocks (hblock'.newline_not_mem hblock) hrest
        rw [List.append_nil, ih hblocks hblocks' hrest.symm]

/-! ## Lines without their blanks -/

/-- The characters that count as white space in Unicode. -/
def whiteSpace : List Char :=
  ['\t', '\n', '\x0b', '\x0c', '\r', ' ', '\u0085', '\u00a0', '\u1680', '\u2000', '\u2001',
    '\u2002', '\u2003', '\u2004', '\u2005', '\u2006', '\u2007', '\u2008', '\u2009', '\u200a',
    '\u2028', '\u2029', '\u202f', '\u205f', '\u3000']

/-- Of all white space a screen shows blanks only. -/
theorem shownChar_mem_whiteSpace_iff (value : UInt8) :
    shownChar value ∈ whiteSpace ↔ shownChar value = ' ' := by
  have h : ∀ n : Fin 256, shownChar (UInt8.ofNat n.val) ∈ whiteSpace ↔
      shownChar (UInt8.ofNat n.val) = ' ' := by decide +kernel
  simpa using h ⟨value.toNat, value.toNat_lt⟩

theorem rdropWhile_whiteSpace {line : List Char} (h : ∀ c ∈ line, c ∈ whiteSpace ↔ c = ' ') :
    line.rdropWhile (· ∈ whiteSpace) = trimBlanks line := by
  induction line using List.reverseRecOn with
  | nil => rfl
  | append_singleton line c ih =>
    obtain ⟨hline, hc⟩ := List.forall_mem_append.1 h
    rw [List.rdropWhile_concat, trimBlanks_concat, ih hline]
    simp only [hc c (List.mem_singleton_self c), decide_eq_true_eq]

/-- What was trimmed off can be put back. -/
theorem rightpad_trimBlanks (line : List Char) :
    (trimBlanks line).rightpad line.length ' ' = line := by
  have hsplit : trimBlanks line ++ line.rtakeWhile (· = ' ') = line :=
    List.rdropWhile_append_rtakeWhile
  have hlength := congrArg List.length hsplit
  rw [List.length_append] at hlength
  have hblanks : line.rtakeWhile (· = ' ') =
      List.replicate (line.length - (trimBlanks line).length) ' ' := by
    refine List.eq_replicate_iff.2 ⟨by omega, fun c hc => ?_⟩
    simpa using List.mem_rtakeWhile_imp hc
  rw [List.rightpad, ← hblanks, hsplit]

/-! ## Frames of screens -/

namespace Screen

theorem frame_eq (s : Screen) :
    s.frame = (topLine :: s.lines.map trimBlanks).flatMap (· ++ ['\n']) := by
  rw [List.flatMap_cons, List.flatMap_map, topLine, List.append_assoc]
  rfl

theorem newline_not_mem_written (s : Screen) :
    ∀ line ∈ topLine :: s.lines.map trimBlanks, '\n' ∉ line := by
  refine List.forall_mem_cons.2 ⟨newline_not_mem_topLine, fun line hline hmem => ?_⟩
  exact ((printable_written hline).2 _ hmem).2 rfl

theorem isFrame_frame (s : Screen) : IsFrame s.frame := by
  constructor
  · rw [frame_eq, List.flatMap_cons]
    exact List.prefix_append _ _
  · rw [frame_eq, count_newline_lines s.newline_not_mem_written, List.length_cons, List.length_map,
      length_lines]

end Screen

/-- What is read back from a block of the form of a frame: the lines below the first, with blanks
up to the width of a screen. -/
def readBack (block : List Char) : List (List Char) :=
  (((block.splitOn '\n').drop 1).take 32).map (List.rightpad 64 ' ')

namespace Screen

theorem readBack_frame (s : Screen) : readBack s.frame = s.lines := by
  have hlength : (s.lines.map trimBlanks).length = 32 := by rw [List.length_map, length_lines]
  have hpad : ∀ line ∈ s.lines, (trimBlanks line).rightpad 64 ' ' = line := by
    intro line hline
    obtain ⟨row, -, rfl⟩ := List.mem_map.1 hline
    rw [← s.length_line row, rightpad_trimBlanks]
  rw [readBack, frame_eq, splitOn_newline_lines s.newline_not_mem_written, List.cons_append,
    List.drop_one, List.tail_cons, ← hlength, List.take_left, List.map_map]
  exact (List.map_congr_left hpad).trans (List.map_id _)

/-- Screens with the same lines show the same characters. -/
theorem lines_eq_iff {s t : Screen} :
    s.lines = t.lines ↔ ∀ i, shownChar (s.get i) = shownChar (t.get i) := by
  constructor
  · intro h i
    obtain ⟨row, column, hcell⟩ := exists_cell_eq_get i
    have hchars := congrArg (fun lines => lines[row.val]?.bind (·[column.val]?)) h
    simp only [getElem?_lines, Option.bind_some, getElem?_line, hcell] at hchars
    exact Option.some.inj hchars
  · intro h
    refine List.map_congr_left fun row _ => List.map_congr_left fun column _ => ?_
    exact h ⟨64 * row.val + column.val, by omega⟩

/-- Frames tell screens apart as far as they show other characters. -/
theorem frame_eq_iff {s t : Screen} :
    s.frame = t.frame ↔ ∀ i, shownChar (s.get i) = shownChar (t.get i) := by
  rw [← lines_eq_iff]
  constructor
  · intro h
    rw [← s.readBack_frame, ← t.readBack_frame, h]
  · intro h
    rw [frame_eq, frame_eq, h]

theorem trimBlanks_line (s : Screen) {line : List Char} (h : line ∈ s.lines) :
    line.rdropWhile (· ∈ whiteSpace) = trimBlanks line := by
  obtain ⟨row, -, rfl⟩ := List.mem_map.1 h
  refine rdropWhile_whiteSpace fun c hc => ?_
  obtain ⟨column, -, rfl⟩ := List.mem_map.1 hc
  exact shownChar_mem_whiteSpace_iff _

end Screen

/-- What is written to a terminal without a limit for these screens. -/
def Terminal.written (screens : List Screen) : List Char :=
  (screens.foldl Host.display ({} : Terminal)).text.toList

theorem Terminal.written_eq (screens : List Screen) :
    written screens = (screens.map Screen.frame).flatten := by
  rw [written, toList_text_displays, List.flatMap_def]

theorem isFrame_of_mem_frames (screens : List Screen) :
    ∀ block ∈ screens.map Screen.frame, IsFrame block := by
  intro block hblock
  obtain ⟨s, -, rfl⟩ := List.mem_map.1 hblock
  exact s.isFrame_frame

/-- Texts are the same just if their frames are. -/
theorem Terminal.written_eq_iff {screens others : List Screen} :
    written others = written screens ↔
      List.Forall₂ (fun s t => s.frame = t.frame) others screens := by
  have hframes : written others = written screens ↔
      others.map Screen.frame = screens.map Screen.frame := by
    rw [written_eq, written_eq]
    exact ⟨eq_of_flatten_eq (isFrame_of_mem_frames others) (isFrame_of_mem_frames screens),
      congrArg List.flatten⟩
  rw [hframes, ← List.forall₂_eq_eq_eq, List.forall₂_map_left_iff, List.forall₂_map_right_iff]

/-- The text that is written for screens is cut in one way into blocks that begin with the first line
of a frame and have 33 newlines, one for each screen, and from each the lines of its screen are read
back. Trimming all white space of the lines would make no other text. So two sequences of screens
have one text just if they are equally long and show the same characters all over. -/
theorem frames_can_be_read_back (screens : List Screen) :
    (∃ blocks, blocks.flatten = Terminal.written screens ∧
      List.Forall₂ (fun block s => IsFrame block ∧ readBack block = s.lines) blocks screens ∧
      ∀ blocks', blocks'.flatten = Terminal.written screens →
        (∀ block ∈ blocks', IsFrame block) → blocks' = blocks) ∧
    Terminal.written screens = screens.flatMap (fun s =>
      topLine ++ '\n' :: s.lines.flatMap fun line =>
        line.rdropWhile (· ∈ whiteSpace) ++ ['\n']) ∧
    ∀ others, Terminal.written others = Terminal.written screens ↔
      List.Forall₂ (fun s t => ∀ i, shownChar (s.get i) = shownChar (t.get i)) others screens := by
  refine ⟨⟨screens.map Screen.frame, (Terminal.written_eq screens).symm, ?_, ?_⟩, ?_, ?_⟩
  · rw [List.forall₂_map_left_iff, List.forall₂_same]
    exact fun s _ => ⟨s.isFrame_frame, s.readBack_frame⟩
  · intro blocks' hcut hblocks'
    exact eq_of_flatten_eq hblocks' (isFrame_of_mem_frames screens)
      (hcut.trans (Terminal.written_eq screens))
  · rw [Terminal.written, Terminal.toList_text_displays]
    refine List.flatMap_congr fun s _ => ?_
    have hlines : s.lines.flatMap (fun line => trimBlanks line ++ ['\n']) =
        s.lines.flatMap fun line => line.rdropWhile (· ∈ whiteSpace) ++ ['\n'] :=
      List.flatMap_congr fun line hline => by rw [s.trimBlanks_line hline]
    rw [Screen.frame, hlines, topLine]
  · intro others
    rw [Terminal.written_eq_iff]
    simp only [Screen.frame_eq_iff]

/-- Two screens that differ in every byte and show the same: the code 127 and blanks. Their frames are
interchangeable, and either is read back as the lines of both. -/
theorem frames_can_be_read_back_of_another_screen :
    let s : Screen := Vector.ofFn fun i => if i.val = 0 then 0xFF else 0x00
    let t : Screen := Vector.ofFn fun i => if i.val = 0 then 0x7F else 0x80
    Terminal.written [t, s] = Terminal.written [s, t] ∧
      (∀ block ∈ [t.frame, s.frame], IsFrame block) ∧
      [t.frame, s.frame].flatten = Terminal.written [s, t] ∧ readBack t.frame = s.lines := by
  intro s t
  have hsame : ∀ i, shownChar (t.get i) = shownChar (s.get i) := by
    intro i
    have hget : ∀ codes : Fin 2048 → UInt8, (Vector.ofFn codes).get i = codes i := fun codes =>
      Vector.getElem_ofFn i.isLt
    rw [hget, hget]
    split <;> decide
  have hframes := isFrame_of_mem_frames [t, s]
  obtain ⟨⟨blocks, -, hblocks, hunique⟩, -, hiff⟩ := frames_can_be_read_back [s, t]
  have hwritten : Terminal.written [t, s] = Terminal.written [s, t] :=
    (hiff [t, s]).2 (.cons hsame (.cons (fun i => (hsame i).symm) .nil))
  have hcut : [t.frame, s.frame].flatten = Terminal.written [s, t] :=
    (Terminal.written_eq [t, s]).symm.trans hwritten
  obtain rfl := hunique [t.frame, s.frame] hcut hframes
  exact ⟨hwritten, hframes, hcut, (List.forall₂_cons.1 hblocks).1.2⟩

end Challenger1P
