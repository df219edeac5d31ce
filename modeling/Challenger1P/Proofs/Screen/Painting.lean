import Mathlib.Data.List.Perm.Subperm
import Challenger1P.Proofs.Bits
import Challenger1P.Proofs.Since
import Challenger1P.Screen.Raster

/-!
# Painting a screen

`Screen.draw?` says of each pixel what it is drawn as. A picture can also be painted, dot by dot:
character by character, and each line by line, with a mask that moves along the lines of its shape.
That comes to an end without a result at the first dot that has no shape or no pixel.

* `Dot.index_inOrder_perm`: the dots are the pixels of the screen, each once.
* `Painted`: what painting some dots does to a picture (`painted_of_foldlM`), if it has a result
  (`isSome_foldlM_paintDot?_iff`).
* `draw?_eq_paint?`: to draw is to paint all dots.
-/

namespace Challenger1P

/-! ## The dots of a screen -/

/-- A dot of a screen: the place of its character, and its line and column in the shape. -/
@[ext]
structure Dot where
  row : Fin 32
  column : Fin 64
  y : Fin 8
  x : Fin 8

namespace Dot

/-- The number of its pixel in the picture. -/
def index (d : Dot) : Nat := (8 * d.row.val + d.y.val) * 512 + 8 * d.column.val + d.x.val

theorem index_lt (d : Dot) : d.index < Picture.size := by
  show (8 * d.row.val + d.y.val) * 512 + 8 * d.column.val + d.x.val < 131072
  omega

/-- Every pixel of the screen is that of a dot. -/
theorem exists_index_eq {i : Nat} (h : i < Picture.size) : ∃ d : Dot, d.index = i := by
  have hi : i < 131072 := h
  refine ⟨⟨⟨i / 512 / 8, by omega⟩, ⟨i % 512 / 8, by omega⟩, ⟨i / 512 % 8, by omega⟩,
    ⟨i % 8, by omega⟩⟩, ?_⟩
  show (8 * (i / 512 / 8) + i / 512 % 8) * 512 + 8 * (i % 512 / 8) + i % 8 = i
  omega

/-- The place of a dot, from the number of its pixel. -/
theorem div_index (d : Dot) :
    d.index / 512 / 8 = d.row ∧ d.index % 512 / 8 = d.column ∧ d.index / 512 % 8 = d.y ∧
      d.index % 8 = d.x := by
  simp only [index]
  omega

theorem index_inj {d e : Dot} : d.index = e.index ↔ d = e := by
  refine ⟨fun h => ?_, congrArg index⟩
  obtain ⟨hrow, hcolumn, hy, hx⟩ := d.div_index
  obtain ⟨hrow', hcolumn', hy', hx'⟩ := e.div_index
  rw [h] at hrow hcolumn hy hx
  exact Dot.ext (Fin.ext (hrow.symm.trans hrow')) (Fin.ext (hcolumn.symm.trans hcolumn'))
    (Fin.ext (hy.symm.trans hy')) (Fin.ext (hx.symm.trans hx'))

/-- All dots, in the order in which they are painted: character by character, each line by line. -/
def inOrder : List Dot :=
  (List.finRange 32).flatMap fun row => (List.finRange 64).flatMap fun column =>
    (List.finRange 8).flatMap fun y => (List.finRange 8).map fun x => { row, column, y, x }

theorem mem_inOrder (d : Dot) : d ∈ inOrder := by
  simp only [inOrder, List.mem_flatMap, List.mem_map, List.mem_finRange, true_and]
  exact ⟨d.row, d.column, d.y, d.x, rfl⟩

theorem length_inOrder : inOrder.length = Picture.size := by
  simp [inOrder, List.length_flatMap, Picture.size]

/-- Each pixel of the screen is painted once. -/
theorem index_inOrder_perm : (inOrder.map index).Perm (List.range Picture.size) := by
  have hsubset : List.range Picture.size ⊆ inOrder.map index := fun i hi =>
    have ⟨d, hd⟩ := exists_index_eq (List.mem_range.1 hi)
    List.mem_map.2 ⟨d, mem_inOrder d, hd⟩
  have hlength : (inOrder.map index).length = (List.range Picture.size).length := by
    rw [List.length_map, length_inOrder, List.length_range]
  have hsubperm := List.subperm_of_subset List.nodup_range hsubset
  exact (hsubperm.perm_of_length_le (Nat.le_of_eq hlength)).symm

end Dot

/-! ## Painting dot by dot -/

/-- A shape is there just if all of its lines are. -/
theorem Glyphs.has_iff {glyphs : Glyphs} {code : UInt8} :
    glyphs.has code = true ↔ ∀ y, (glyphs.row? code y).isSome = true := by
  refine ⟨isSome_row?, fun h => ?_⟩
  cases glyphs with
  | rom contents =>
    have hlast : 8 * code.toNat + (Fin.last 7).val < contents.size := by
      simpa only [row?, isSome_getElem?] using h (Fin.last 7)
    exact decide_eq_true hlast
  | boxes => rfl

/-- The colour of a dot, by the line of the shape that it is in. -/
def Picture.shade (bits : UInt8) (x : Fin 8) : UInt32 :=
  if bits.toNat.testBit (7 - x.val) then foreground else background

namespace Screen

variable {s : Screen} {glyphs : Glyphs} {picture drawn : Array UInt32} {d : Dot}

/-- The colour of a dot, if there is a shape for its character: a mask moves along a line of the
shape. -/
def colour? (s : Screen) (glyphs : Glyphs) (d : Dot) : Option UInt32 :=
  (glyphs.row? (s.cell d.row d.column) d.y).map fun bits =>
    if bits &&& (0x80 >>> UInt8.ofNat d.x.val) ≠ 0 then Picture.foreground else Picture.background

/-- Paint a dot, if it has a colour and the picture has its pixel. -/
def paintDot? (s : Screen) (glyphs : Glyphs) (picture : Array UInt32) (d : Dot) :
    Option (Array UInt32) :=
  (s.colour? glyphs d).bind fun colour =>
    if h : d.index < picture.size then some (picture.set d.index colour) else none

/-- Paint one dot after the other. -/
def paint? (s : Screen) (glyphs : Glyphs) (picture : Array UInt32) : Option (Array UInt32) :=
  Dot.inOrder.foldlM (s.paintDot? glyphs) picture

theorem paintDot?_eq_some_iff :
    s.paintDot? glyphs picture d = some drawn ↔
      ∃ colour, s.colour? glyphs d = some colour ∧
        ∃ h : d.index < picture.size, picture.set d.index colour = drawn := by
  simp only [paintDot?, Option.bind_eq_some_iff, Option.dite_none_right_eq_some, Option.some.injEq]

/-- What has become of a picture once these dots are painted. -/
structure Painted (s : Screen) (glyphs : Glyphs) (dots : List Dot) (picture drawn : Array UInt32) :
    Prop where
  size_eq : drawn.size = picture.size
  getElem?_index : ∀ d ∈ dots, drawn[d.index]? = s.colour? glyphs d
  getElem?_of_forall_ne : ∀ i, (∀ d ∈ dots, d.index ≠ i) → drawn[i]? = picture[i]?

theorem Painted.refl (s : Screen) (glyphs : Glyphs) (picture : Array UInt32) :
    s.Painted glyphs [] picture picture where
  size_eq := rfl
  getElem?_index := fun _ h => nomatch h
  getElem?_of_forall_ne := fun _ _ => rfl

theorem Painted.paintDot? {dots : List Dot} {next : Array UInt32}
    (h : s.Painted glyphs dots picture drawn) (hpaint : s.paintDot? glyphs drawn d = some next) :
    s.Painted glyphs (dots ++ [d]) picture next := by
  obtain ⟨colour, hcolour, hindex, rfl⟩ := paintDot?_eq_some_iff.1 hpaint
  refine ⟨by rw [Array.size_set, h.size_eq], fun e he => ?_, fun i hi => ?_⟩
  · rw [Array.getElem?_set]
    split
    next heq => rw [← Dot.index_inj.1 heq, hcolour]
    next hne =>
      rcases List.mem_append.1 he with hmem | hlast
      · exact h.getElem?_index e hmem
      · exact absurd (congrArg Dot.index (List.mem_singleton.1 hlast).symm) hne
  · obtain ⟨hothers, hlast⟩ := List.forall_mem_append.1 hi
    rw [Array.getElem?_set_ne hindex (hlast d (List.mem_singleton_self d))]
    exact h.getElem?_of_forall_ne i hothers

theorem painted_of_foldlM {dots : List Dot}
    (h : dots.foldlM (s.paintDot? glyphs) picture = some drawn) :
    s.Painted glyphs dots picture drawn := by
  induction dots using List.reverseRecOn generalizing drawn with
  | nil =>
    cases h
    exact .refl s glyphs picture
  | append_singleton dots d ih =>
    rw [foldlM_append_singleton] at h
    obtain ⟨before, hbefore, hlast⟩ := Option.bind_eq_some_iff.1 h
    exact (ih hbefore).paintDot? hlast

theorem isSome_paintDot?_iff :
    (s.paintDot? glyphs picture d).isSome = true ↔
      d.index < picture.size ∧ (s.colour? glyphs d).isSome = true := by
  simp only [Option.isSome_iff_exists, paintDot?_eq_some_iff]
  constructor
  · rintro ⟨drawn, colour, hcolour, hindex, -⟩
    exact ⟨hindex, colour, hcolour⟩
  · rintro ⟨hindex, colour, hcolour⟩
    exact ⟨_, colour, hcolour, hindex, rfl⟩

/-- Dots can be painted just if each has a colour and a pixel. -/
theorem isSome_foldlM_paintDot?_iff {dots : List Dot} :
    (dots.foldlM (s.paintDot? glyphs) picture).isSome = true ↔
      ∀ d ∈ dots, d.index < picture.size ∧ (s.colour? glyphs d).isSome = true := by
  induction dots using List.reverseRecOn with
  | nil => exact ⟨fun _ => List.forall_mem_nil _, fun _ => rfl⟩
  | append_singleton dots d ih =>
    rw [foldlM_append_singleton, List.forall_mem_append, List.forall_mem_singleton, ← ih]
    cases hbefore : dots.foldlM (s.paintDot? glyphs) picture with
    | none => exact ⟨fun h => (nomatch h), fun h => (nomatch h.1)⟩
    | some before =>
      rw [← (painted_of_foldlM hbefore).size_eq, ← isSome_paintDot?_iff]
      exact ⟨fun h => ⟨rfl, h⟩, fun h => h.2⟩

/-! ## Painting all dots -/

theorem cell_mem (s : Screen) (row : Fin 32) (column : Fin 64) : s.cell row column ∈ s :=
  Vector.getElem_mem _

theorem exists_cell_eq {code : UInt8} (h : code ∈ s) : ∃ row column, s.cell row column = code := by
  obtain ⟨i, hi, rfl⟩ := Vector.getElem_of_mem h
  obtain ⟨row, column, hcell⟩ := exists_cell_eq_get ⟨i, hi⟩
  exact ⟨row, column, hcell s⟩

theorem covered_iff : s.covered glyphs = true ↔ ∀ code ∈ s, glyphs.has code = true := by
  simp only [covered, Array.all_eq_true', Vector.mem_toArray_iff]

/-- There is a shape for every code on the screen just if every dot has a colour. -/
theorem covered_iff_forall_colour? :
    s.covered glyphs = true ↔ ∀ d, (s.colour? glyphs d).isSome = true := by
  simp only [covered_iff, Glyphs.has_iff, colour?, Option.isSome_map]
  constructor
  · exact fun h d => h _ (s.cell_mem d.row d.column) d.y
  · intro h code hcode y
    obtain ⟨row, column, rfl⟩ := exists_cell_eq hcode
    exact h ⟨row, column, y, y⟩

theorem isSome_draw?_iff :
    (s.draw? glyphs picture).isSome = true ↔
      Picture.size ≤ picture.size ∧ s.covered glyphs = true := by
  unfold draw?
  split
  next h => exact ⟨fun _ => h, fun _ => rfl⟩
  next h => exact ⟨fun hsome => (nomatch hsome), fun hboth => absurd hboth h⟩

theorem isSome_paint?_iff :
    (s.paint? glyphs picture).isSome = true ↔
      Picture.size ≤ picture.size ∧ s.covered glyphs = true := by
  rw [paint?, isSome_foldlM_paintDot?_iff, covered_iff_forall_colour?]
  constructor
  · intro h
    let last : Dot := ⟨Fin.last 31, Fin.last 63, Fin.last 7, Fin.last 7⟩
    have hindex : last.index + 1 = Picture.size := by decide
    refine ⟨?_, fun d => (h d (Dot.mem_inOrder d)).2⟩
    rw [← hindex]
    exact (h last (Dot.mem_inOrder last)).1
  · exact fun h d _ => ⟨Nat.lt_of_lt_of_le d.index_lt h.1, h.2 d⟩

/-- The mask leaves the bit that stands for the dot. -/
theorem and_mask_ne_zero_iff (bits : UInt8) (x : Fin 8) :
    bits &&& (0x80 >>> UInt8.ofNat x.val) ≠ 0 ↔ bits.toNat.testBit (7 - x.val) = true := by
  have hmask : (0x80 : UInt8) >>> UInt8.ofNat x.val = 1 <<< x.rev.val.toUInt8 := by
    revert x
    decide
  have hrev : x.rev.val = 7 - x.val := by
    rw [Fin.val_rev]
    omega
  rw [hmask, ← hrev, ← masked_eq_testBit, bne_iff_ne]

/-- A pixel is drawn in the colour of its dot. -/
theorem pixel_index (s : Screen) (glyphs : Glyphs) (d : Dot) :
    s.pixel glyphs ⟨d.index, d.index_lt⟩ = (s.colour? glyphs d).getD Picture.background := by
  obtain ⟨hrow, hcolumn, hy, hx⟩ := d.div_index
  simp only [pixel, hrow, hcolumn, hy, hx, Fin.eta, colour?, and_mask_ne_zero_iff]
  cases glyphs.row? (s.cell d.row d.column) d.y with
  | none => simp
  | some bits => rfl

theorem draw?_eq_some_iff :
    s.draw? glyphs picture = some drawn ↔
      (Picture.size ≤ picture.size ∧ s.covered glyphs = true) ∧
        (picture.mapIdx fun i old =>
          if h : i < Picture.size then s.pixel glyphs ⟨i, h⟩ else old) = drawn := by
  rw [draw?, Option.ite_none_right_eq_some, Option.some.injEq]

/-- Painting and drawing come to the same. -/
theorem Painted.eq_of_draw? {painted : Array UInt32}
    (h : s.Painted glyphs Dot.inOrder picture painted) (hdraw : s.draw? glyphs picture = some drawn) :
    painted = drawn := by
  obtain ⟨⟨hsize, hcovered⟩, rfl⟩ := draw?_eq_some_iff.1 hdraw
  refine Array.ext_getElem? fun i => ?_
  rw [Array.getElem?_mapIdx]
  by_cases hi : i < Picture.size
  · obtain ⟨d, rfl⟩ := Dot.exists_index_eq hi
    obtain ⟨colour, hcolour⟩ :=
      Option.isSome_iff_exists.1 (covered_iff_forall_colour?.1 hcovered d)
    rw [h.getElem?_index d (Dot.mem_inOrder d),
      Array.getElem?_eq_getElem (Nat.lt_of_lt_of_le hi hsize), Option.map_some, dif_pos hi,
      pixel_index, hcolour, Option.getD_some]
  · rw [h.getElem?_of_forall_ne i fun d _ heq => hi (heq ▸ d.index_lt)]
    simp only [dif_neg hi, Option.map_id']

/-- To draw is to paint all dots. -/
theorem draw?_eq_paint? (s : Screen) (glyphs : Glyphs) (picture : Array UInt32) :
    s.draw? glyphs picture = s.paint? glyphs picture := by
  cases hpaint : s.paint? glyphs picture with
  | none =>
    rw [← Option.not_isSome_iff_eq_none, isSome_draw?_iff, ← isSome_paint?_iff, hpaint]
    exact Bool.false_ne_true
  | some painted =>
    obtain ⟨drawn, hdraw⟩ : ∃ drawn, s.draw? glyphs picture = some drawn := by
      rw [← Option.isSome_iff_exists, isSome_draw?_iff, ← isSome_paint?_iff, hpaint]
      rfl
    rw [hdraw, (painted_of_foldlM hpaint).eq_of_draw? hdraw]

/-- What drawing a screen leaves of a picture. -/
theorem painted_of_draw? (h : s.draw? glyphs picture = some drawn) :
    s.Painted glyphs Dot.inOrder picture drawn :=
  painted_of_foldlM (by rw [← h, draw?_eq_paint?]; rfl)

theorem colour?_eq_some_iff {colour : UInt32} :
    s.colour? glyphs d = some colour ↔
      ∃ bits, glyphs.row? (s.cell d.row d.column) d.y = some bits ∧ Picture.shade bits d.x = colour := by
  simp only [colour?, and_mask_ne_zero_iff, Option.map_eq_some_iff, Picture.shade]

theorem Painted.exists_shade (h : s.Painted glyphs Dot.inOrder picture drawn)
    (hcovered : s.covered glyphs = true) (d : Dot) :
    ∃ bits, glyphs.row? (s.cell d.row d.column) d.y = some bits ∧
      drawn[d.index]? = some (Picture.shade bits d.x) := by
  obtain ⟨colour, hcolour⟩ := Option.isSome_iff_exists.1 (covered_iff_forall_colour?.1 hcovered d)
  obtain ⟨bits, hbits, rfl⟩ := colour?_eq_some_iff.1 hcolour
  exact ⟨bits, hbits, (h.getElem?_index d (Dot.mem_inOrder d)).trans hcolour⟩

/-- Two pictures with one screen on them differ only beyond it. -/
theorem Painted.getElem?_eq {other redrawn : Array UInt32}
    (h : s.Painted glyphs Dot.inOrder picture drawn)
    (hother : s.Painted glyphs Dot.inOrder other redrawn) {i : Nat} (hi : i < Picture.size) :
    redrawn[i]? = drawn[i]? := by
  obtain ⟨d, rfl⟩ := Dot.exists_index_eq hi
  rw [h.getElem?_index d (Dot.mem_inOrder d), hother.getElem?_index d (Dot.mem_inOrder d)]

/-- On a picture that is all screen, nothing is left of what it was. -/
theorem draw?_congr {other : Array UInt32} (hpicture : picture.size = Picture.size)
    (hother : other.size = Picture.size) : s.draw? glyphs picture = s.draw? glyphs other := by
  have hsome : (s.draw? glyphs picture).isSome = (s.draw? glyphs other).isSome := by
    rw [Bool.eq_iff_iff, isSome_draw?_iff, isSome_draw?_iff, hpicture, hother]
  cases hdraw : s.draw? glyphs picture with
  | none => exact (Option.isNone_iff_eq_none.1 (by simpa [hdraw] using hsome)).symm
  | some drawn =>
    obtain ⟨redrawn, hredraw⟩ : ∃ redrawn, s.draw? glyphs other = some redrawn :=
      Option.isSome_iff_exists.1 (by rw [← hsome, hdraw]; rfl)
    have hdrawn := painted_of_draw? hdraw
    have hredrawn := painted_of_draw? hredraw
    rw [hredraw]
    refine congrArg some (Array.ext_getElem? fun i => ?_)
    rcases Nat.lt_or_ge i Picture.size with hlt | hge
    · exact hredrawn.getElem?_eq hdrawn hlt
    · rw [Array.getElem?_eq_none (by rw [hdrawn.size_eq, hpicture]; exact hge),
        Array.getElem?_eq_none (by rw [hredrawn.size_eq, hother]; exact hge)]

theorem Painted.getElem?_of_size_le (h : s.Painted glyphs Dot.inOrder picture drawn) {i : Nat}
    (hi : Picture.size ≤ i) : drawn[i]? = picture[i]? :=
  h.getElem?_of_forall_ne i fun d _ => Nat.ne_of_lt (Nat.lt_of_lt_of_le d.index_lt hi)

theorem covered_iff_rom :
    s.covered glyphs = true ↔
      ∀ contents, glyphs = .rom contents → ∀ code ∈ s, 8 * code.toNat + 7 < contents.size := by
  rw [covered_iff]
  cases glyphs with
  | rom contents => simp [Glyphs.has]
  | boxes => simp [Glyphs.has]

/-- Drawing a screen is painting its dots one after the other, each pixel once. It has a result just
if the picture has room for the screen and the character ROM, if there is one, has a shape for each
code on it, as one that was loaded has. Then each pixel has the colour of its bit in the shape of its
character, whatever the picture was, and nothing changes beyond the screen. -/
theorem every_pixel_is_painted_once (s : Screen) (glyphs : Glyphs) (picture : Array UInt32) :
    (Dot.inOrder.map Dot.index).Perm (List.range Picture.size) ∧
    s.draw? glyphs picture = s.paint? glyphs picture ∧
    ((s.draw? glyphs picture).isSome = true ↔
      Picture.size ≤ picture.size ∧
        ∀ contents, glyphs = .rom contents → ∀ code ∈ s, 8 * code.toNat + 7 < contents.size) ∧
    (∀ read path rom, loadCharacterRom read path = .ok rom →
      ∀ code ∈ s, 8 * code.toNat + 7 < rom.toArray.size) ∧
    ∀ drawn, s.draw? glyphs picture = some drawn →
      drawn.size = picture.size ∧
      (∀ d : Dot,
        (∀ contents, glyphs = .rom contents →
          ∃ bits, contents[8 * (s.cell d.row d.column).toNat + d.y.val]? = some bits ∧
            drawn[d.index]? = some (Picture.shade bits d.x)) ∧
        (glyphs = .boxes →
          drawn[d.index]? = some (Picture.shade
            (if shownChar (s.cell d.row d.column) = ' ' then 0x00
              else if d.y.val = 0 ∨ d.y.val = 7 then 0xFF else 0x81) d.x))) ∧
      (∀ i, Picture.size ≤ i → drawn[i]? = picture[i]?) ∧
      ∀ other redrawn, s.draw? glyphs other = some redrawn →
        ∀ i, i < Picture.size → redrawn[i]? = drawn[i]? := by
  refine ⟨Dot.index_inOrder_perm, draw?_eq_paint? s glyphs picture, ?_, ?_, fun drawn hdraw => ?_⟩
  · rw [isSome_draw?_iff, covered_iff_rom]
  · intro read path rom _ code _
    rw [rom.size_toArray, characterRomSize]
    have hcode := code.toNat_lt
    omega
  · have hpainted := painted_of_draw? hdraw
    have hcovered := (draw?_eq_some_iff.1 hdraw).1.2
    refine ⟨hpainted.size_eq, fun d => ?_, fun i => hpainted.getElem?_of_size_le,
      fun other redrawn hother i => hpainted.getElem?_eq (painted_of_draw? hother)⟩
    obtain ⟨bits, hbits, hdot⟩ := hpainted.exists_shade hcovered d
    constructor
    · rintro contents rfl
      exact ⟨bits, hbits, hdot⟩
    · rintro rfl
      cases hbits
      exact hdot

/-- The shortest character ROM for the screen, and a picture with a pixel beyond the screen. -/
theorem every_pixel_is_painted_once_over_another :
    let s : Screen := Vector.replicate 2048 0x41
    let contents : Array UInt8 := Array.replicate 528 0x81
    let picture : Array UInt32 := Array.replicate 131073 7
    ∃ drawn, s.draw? (.rom contents) picture = some drawn ∧ drawn[0]? = some Picture.foreground ∧
      drawn[1]? = some Picture.background ∧ drawn[131072]? = some 7 := by
  intro s contents picture
  obtain ⟨-, -, hsome, -, hdrawn⟩ := every_pixel_is_painted_once s (.rom contents) picture
  have hroom : Picture.size ≤ picture.size := by simp [picture, Picture.size]
  have hshapes : ∀ rom, Glyphs.rom contents = .rom rom →
      ∀ code ∈ s, 8 * code.toNat + 7 < rom.size := by
    rintro rom ⟨⟩ code hcode
    rw [Vector.eq_of_mem_replicate hcode, Array.size_replicate]
    decide
  obtain ⟨drawn, hdraw⟩ := Option.isSome_iff_exists.1 (hsome.2 ⟨hroom, hshapes⟩)
  obtain ⟨-, hdots, hbeyond, -⟩ := hdrawn drawn hdraw
  have hdot : ∀ x : Fin 8, drawn[x.val]? = some (Picture.shade 0x81 x) := by
    intro x
    let d : Dot := ⟨⟨0, by decide⟩, ⟨0, by decide⟩, ⟨0, by decide⟩, x⟩
    obtain ⟨bits, hbits, hcolour⟩ := (hdots d).1 contents rfl
    have hindex : d.index = x.val := by
      show (8 * 0 + 0) * 512 + 8 * 0 + x.val = x.val
      omega
    obtain ⟨-, rfl⟩ : _ ∧ 0x81 = bits := by simpa [contents, Array.getElem?_replicate] using hbits
    rwa [hindex] at hcolour
  have hleft : Picture.shade 0x81 ⟨0, by decide⟩ = Picture.foreground := by decide
  have hnext : Picture.shade 0x81 ⟨1, by decide⟩ = Picture.background := by decide
  refine ⟨drawn, hdraw, (hdot ⟨0, by decide⟩).trans (congrArg some hleft),
    (hdot ⟨1, by decide⟩).trans (congrArg some hnext), ?_⟩
  rw [hbeyond 131072 (Nat.le_refl _), Array.getElem?_replicate, if_pos (by decide)]

end Screen

end Challenger1P
