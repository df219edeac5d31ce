import Mathlib.Data.List.Forall2
import Challenger1P.Proofs.Rom.Cutting
import Challenger1P.Rom.Load

/-!
# What becomes of a list of images

Fetching a list of images gives their blocks, in order, if every image can be had (`Obtained`).
Otherwise there is a first that cannot (`FirstFailure`), and its error is the answer; it is lost
where an image after that one crashes.

* `obtain_eq_ok_iff`: what it takes to have one image.
* `exists_obtained_or_firstFailure`: a list has either its blocks or a first failure.
* `obtainAll_cases`: what fetching it comes to.
-/

namespace Challenger1P.Rom

variable {source : Source} {image : Image} {images before rest : List Image}
  {block : List UInt8} {blocks : List (List UInt8)}

/-! ## One image -/

theorem crashes_iff : image.crashes source = true ↔ source image.name = .crashed := by
  unfold Image.crashes
  cases source image.name <;> simp

/-- An image can be had if its source has bytes and it can be cut out of them. -/
theorem obtain_eq_ok_iff :
    image.obtain source = .ok block ↔
      ∃ raw, source image.name = .bytes raw ∧ image.cut raw = .ok block := by
  unfold Image.obtain
  cases source image.name <;> simp

/-! ## All of them -/

/-- These are the blocks of the images, in order. -/
abbrev Obtained (source : Source) : List Image → List (List UInt8) → Prop :=
  List.Forall₂ fun image block => image.obtain source = .ok block

/-- The first of the images that cannot be had. -/
structure FirstFailure (source : Source) (images : List Image) where
  before : List Image
  image : Image
  rest : List Image
  error : LoadError
  images_eq : images = before ++ image :: rest
  before_obtained : ∀ earlier ∈ before, ∃ block, earlier.obtain source = .ok block
  obtain_eq : image.obtain source = .error error

/-- A failure stays the first behind an image that can be had. -/
def FirstFailure.cons (first : FirstFailure source rest) (h : image.obtain source = .ok block) :
    FirstFailure source (image :: rest) where
  before := image :: first.before
  image := first.image
  rest := first.rest
  error := first.error
  images_eq := congrArg (image :: ·) first.images_eq
  before_obtained := List.forall_mem_cons.2 ⟨⟨block, h⟩, first.before_obtained⟩
  obtain_eq := first.obtain_eq

theorem exists_obtained_or_firstFailure (source : Source) (images : List Image) :
    (∃ blocks, Obtained source images blocks) ∨ Nonempty (FirstFailure source images) := by
  induction images with
  | nil => exact Or.inl ⟨[], .nil⟩
  | cons image rest ih =>
    cases himage : image.obtain source with
    | error error =>
      exact Or.inr ⟨{ before := [], image, rest, error, images_eq := rfl
                      before_obtained := by simp, obtain_eq := himage }⟩
    | ok block =>
      rcases ih with ⟨blocks, hblocks⟩ | ⟨⟨first⟩⟩
      · exact Or.inl ⟨block :: blocks, .cons himage hblocks⟩
      · exact Or.inr ⟨first.cons himage⟩

theorem Obtained.exists_of_mem (h : Obtained source images blocks) :
    ∀ image ∈ images, ∃ block, image.obtain source = .ok block := by
  induction h with
  | nil => simp
  | cons himage _ ih => exact List.forall_mem_cons.2 ⟨⟨_, himage⟩, ih⟩

theorem exists_obtained_of_forall (h : ∀ image ∈ images, ∃ block, image.obtain source = .ok block) :
    ∃ blocks, Obtained source images blocks := by
  refine (exists_obtained_or_firstFailure source images).resolve_right fun ⟨first⟩ => ?_
  obtain ⟨block, hblock⟩ := h first.image (by simp [first.images_eq])
  rw [first.obtain_eq] at hblock
  cases hblock

theorem exists_firstFailure_of_exists
    (h : ∃ image ∈ images, ∃ error, image.obtain source = .error error) :
    Nonempty (FirstFailure source images) := by
  refine (exists_obtained_or_firstFailure source images).resolve_left fun ⟨blocks, hblocks⟩ => ?_
  obtain ⟨image, hmem, error, herror⟩ := h
  obtain ⟨block, hblock⟩ := hblocks.exists_of_mem image hmem
  rw [herror] at hblock
  cases hblock

theorem obtainAll_of_obtained (h : Obtained source images blocks) :
    obtainAll source images = .ok blocks := by
  induction h with
  | nil => rfl
  | cons himage _ ih =>
    rw [obtainAll, himage]
    simp only [ih]
    rfl

/-- Images that can be had make no difference to the failure of those after them. -/
theorem obtainAll_append_of_error {failure : Failure}
    (hbefore : ∀ earlier ∈ before, ∃ block, earlier.obtain source = .ok block)
    (hrest : obtainAll source rest = .error failure) :
    obtainAll source (before ++ rest) = .error failure := by
  induction before with
  | nil => exact hrest
  | cons image before ih =>
    obtain ⟨⟨block, hblock⟩, hbefore⟩ := List.forall_mem_cons.1 hbefore
    rw [List.cons_append, obtainAll, hblock]
    simp only [ih hbefore]
    rfl

theorem FirstFailure.obtainAll_of_crashed (first : FirstFailure source images)
    (h : ∃ later ∈ first.rest, source later.name = .crashed) :
    obtainAll source images = .error .uncollectedCrash := by
  have hany : first.rest.any (Image.crashes source) = true := by
    simpa only [List.any_eq_true, crashes_iff] using h
  have hrest : obtainAll source (first.image :: first.rest) = .error .uncollectedCrash := by
    rw [obtainAll, first.obtain_eq]
    exact if_pos hany
  exact (congrArg _ first.images_eq).trans (obtainAll_append_of_error first.before_obtained hrest)

theorem FirstFailure.obtainAll_of_not_crashed (first : FirstFailure source images)
    (h : ∀ later ∈ first.rest, source later.name ≠ .crashed) :
    obtainAll source images = .error (.refused first.error) := by
  have hnone : ¬ first.rest.any (Image.crashes source) = true := by
    simpa only [List.any_eq_true, crashes_iff, not_exists, not_and] using h
  have hrest : obtainAll source (first.image :: first.rest) = .error (.refused first.error) := by
    rw [obtainAll, first.obtain_eq]
    exact if_neg hnone
  exact (congrArg _ first.images_eq).trans (obtainAll_append_of_error first.before_obtained hrest)

/-- The three ways in which fetching ends. -/
theorem obtainAll_cases (source : Source) (images : List Image) :
    (∃ blocks, Obtained source images blocks ∧ obtainAll source images = .ok blocks) ∨
      (∃ first : FirstFailure source images, (∀ later ∈ first.rest, source later.name ≠ .crashed) ∧
        obtainAll source images = .error (.refused first.error)) ∨
      ∃ first : FirstFailure source images, (∃ later ∈ first.rest, source later.name = .crashed) ∧
        obtainAll source images = .error .uncollectedCrash := by
  rcases exists_obtained_or_firstFailure source images with ⟨blocks, hblocks⟩ | ⟨⟨first⟩⟩
  · exact Or.inl ⟨blocks, hblocks, obtainAll_of_obtained hblocks⟩
  · by_cases hlater : ∃ later ∈ first.rest, source later.name = .crashed
    · exact Or.inr (Or.inr ⟨first, hlater, first.obtainAll_of_crashed hlater⟩)
    · simp only [not_exists, not_and] at hlater
      exact Or.inr (Or.inl ⟨first, hlater, first.obtainAll_of_not_crashed hlater⟩)

theorem obtained_of_obtainAll (h : obtainAll source images = .ok blocks) :
    Obtained source images blocks := by
  rcases obtainAll_cases source images with
    ⟨_, hblocks, hall⟩ | ⟨_, _, hall⟩ | ⟨_, _, hall⟩ <;> rw [hall] at h <;> cases h
  exact hblocks

/-- Fetching ends in one of three ways. If every image can be had, their blocks are the answer, in
order. If not, the error of the first that cannot be had is the answer, and a crash is an error like
another. But an image after that one is not collected any more, and if it crashes, there is no
answer. -/
theorem fetch_answers_unless_a_later_image_crashes (source : Source) (images : List Image) :
    (∀ blocks, obtainAll source images = .ok blocks ↔ Obtained source images blocks) ∧
    (∀ error, obtainAll source images = .error (.refused error) ↔
      ∃ first : FirstFailure source images, first.error = error ∧
        ∀ later ∈ first.rest, source later.name ≠ .crashed) ∧
    (obtainAll source images = .error .uncollectedCrash ↔
      ∃ first : FirstFailure source images, ∃ later ∈ first.rest,
        source later.name = .crashed) := by
  refine ⟨fun blocks => ⟨obtained_of_obtainAll, obtainAll_of_obtained⟩,
    fun error => ⟨fun h => ?_, ?_⟩,
    fun h => ?_, fun ⟨first, hlater⟩ => first.obtainAll_of_crashed hlater⟩
  · rcases obtainAll_cases source images with
      ⟨_, _, hall⟩ | ⟨first, hlater, hall⟩ | ⟨_, _, hall⟩ <;> rw [hall] at h <;> cases h
    exact ⟨first, rfl, hlater⟩
  · rintro ⟨first, rfl, hlater⟩
    exact first.obtainAll_of_not_crashed hlater
  · rcases obtainAll_cases source images with
      ⟨_, _, hall⟩ | ⟨_, _, hall⟩ | ⟨first, hlater, hall⟩ <;> rw [hall] at h <;> cases h
    exact ⟨first, hlater⟩

/-- The first image's source is too short, and the second one crashes: that the first was refused is
nowhere to be seen. -/
theorem crash_hides_the_first_error :
    let source := Source.shelf [("a", .bytes [1]), ("b", .crashed)]
    let short : Image := ⟨"a", 0, 4, 0⟩
    let crashing : Image := ⟨"b", 1, 2, 0xFFFE⟩
    short.obtain source = .error (.truncated "a" 0 4 1) ∧
      obtainAll source [short] = .error (.refused (.truncated "a" 0 4 1)) ∧
      obtainAll source [short, crashing] = .error .uncollectedCrash ∧
      obtainAll source [crashing, short] = .error (.refused (.crashed "b")) := by
  intro source short crashing
  exact ⟨rfl, rfl, rfl, rfl⟩

end Challenger1P.Rom
