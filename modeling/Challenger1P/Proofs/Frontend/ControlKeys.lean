import Challenger1P.Proofs.Frontend.HeldKeys
import Challenger1P.Proofs.Keyboard.Identification

/-!
# Two control keys for one

Both control keys of a window stand for the one that the keyboard has. The window passes on each
press and each release, and the keyboard does not count them, so the key that moved last decides:
when one comes up, the key of the machine does too, also if the other is still down. That does not
happen as long as the two come up together (`ControlsUpTogether`).

* `InTouch.control_iff`: the key of the machine is down since a control key went down, if none came
  up after that.
* `since_presses_of_isDown`: so it is down with either of the two, if they come up together.
-/

namespace Challenger1P

/-! ## The control keys -/

/-- The keys of a window that stand for the control key. -/
def PhysicalKey.controls : List PhysicalKey := [.leftControl, .rightControl]

theorem PhysicalKey.isFor_control_iff_mem {physical : PhysicalKey} :
    physical.IsFor .control ↔ physical ∈ controls := by
  rw [isFor_control, controls, List.mem_pair]

/-- A control key went down. -/
def Signals.PressesControl (s : Signals) : Prop :=
  ∃ physical ∈ PhysicalKey.controls, physical ∈ s.pressed

/-- No control key came up. -/
def Signals.KeepsControl (s : Signals) : Prop :=
  ∀ physical ∈ PhysicalKey.controls, physical ∉ s.released

/-- Whenever one of the control keys comes up, the other does at the same poll, if it is down. -/
def ControlsUpTogether (polls : List Signals) : Prop :=
  ∀ (i : Nat) (h : i < polls.length), ∀ one ∈ PhysicalKey.controls,
    ∀ other ∈ PhysicalKey.controls,
      one ∈ polls[i].released → IsDown (polls.take i) other → other ∈ polls[i].released

instance (polls : List Signals) : Decidable (ControlsUpTogether polls) :=
  inferInstanceAs (Decidable (∀ (i : Nat) (_ : i < polls.length), _))

theorem controlsUpTogether_append_singleton {polls : List Signals} {s : Signals}
    (h : ControlsUpTogether (polls ++ [s])) :
    ControlsUpTogether polls ∧ ∀ one ∈ PhysicalKey.controls, ∀ other ∈ PhysicalKey.controls,
      one ∈ s.released → IsDown polls other → other ∈ s.released := by
  constructor
  · intro i hi
    have hlast := h i (by rw [List.length_append]; omega)
    rwa [List.getElem_append_left hi, List.take_append_of_le_length (Nat.le_of_lt hi)] at hlast
  · have hlast := h polls.length (by simp)
    rwa [List.getElem_concat_length rfl, List.take_left] at hlast

/-! ## When the keyboard's control key is down -/

theorem InTouch.control_iff {polls : List Signals} {w : Window} {keyboard : Keyboard}
    (h : InTouch polls w keyboard) :
    keyboard.control = true ↔ Since Signals.PressesControl Signals.KeepsControl polls := by
  have hmodifier := h.modifier_iff .control (by decide)
  simp only [PhysicalKey.isFor_control_iff_mem, reduceCtorEq, false_and, or_false] at hmodifier
  have hpresses : Signals.PressesControl =
      fun s => ∃ physical ∈ s.pressed, physical ∈ PhysicalKey.controls := by
    funext s
    exact propext (exists_congr fun _ => and_comm)
  have hkeeps : Signals.KeepsControl =
      fun s => ∀ physical ∈ s.released, physical ∉ PhysicalKey.controls := by
    funext s
    exact propext (forall_congr' fun _ => imp_not_comm)
  rw [← h.possible.control_mem_keysDown_iff, hmodifier, hpresses, hkeeps]

variable {polls : List Signals}

theorem isDown_of_since_presses (horderly : Orderly polls)
    (h : Since Signals.PressesControl Signals.KeepsControl polls) :
    ∃ physical ∈ PhysicalKey.controls, IsDown polls physical := by
  obtain ⟨before, s, after, rfl, ⟨physical, hcontrol, hpressed⟩, hkept⟩ := h
  refine ⟨physical, hcontrol, (horderly.isDown_iff_since physical).2 ?_⟩
  exact ⟨before, s, after, rfl, hpressed, fun t ht => hkept t ht physical hcontrol⟩

theorem since_presses_of_isDown (horderly : Orderly polls) (h : ControlsUpTogether polls)
    {physical : PhysicalKey} (hcontrol : physical ∈ PhysicalKey.controls)
    (hdown : IsDown polls physical) : Since Signals.PressesControl Signals.KeepsControl polls := by
  induction polls using List.reverseRecOn with
  | nil => cases hdown
  | append_singleton polls s ih =>
    obtain ⟨hbefore, htogether⟩ := controlsUpTogether_append_singleton h
    rw [since_append_singleton]
    rcases (horderly.isDown_append physical).1 hdown with hpressed | ⟨hkept, hdown⟩
    · exact Or.inl ⟨physical, hcontrol, hpressed⟩
    · refine Or.inr ⟨fun other hother hreleased => hkept ?_, ih horderly.init hbefore hdown⟩
      exact htogether other hother physical hcontrol hreleased hdown

theorem Keyboard.Possible.testBit_control {keyboard : Keyboard} (h : keyboard.Possible) :
    keyboard.rows[0].toNat.testBit 6 = true ↔ keyboard.control = true :=
  (@mem_closed_iff_testBit keyboard 0 6).symm.trans h.control_iff.symm

/-- Whatever is done with a new window and a new keyboard, as long as the window system is orderly,
the matrix shows the control key if a control key of the window went down and neither came up after
that. One of the two is down then; and it is shown as long as either is down, if they come up
together. -/
theorem control_goes_with_the_key_moved_last (glyphs : Glyphs) (uses : List WindowUse)
    (horderly : Orderly (uses.filterMap WindowUse.signals?)) :
    let polls := uses.filterMap WindowUse.signals?
    ∀ w keyboard, Window.after? glyphs uses = some (w, keyboard) →
      (keyboard.rows[0].toNat.testBit 6 = true ↔ keyboard.control = true) ∧
      (keyboard.control = true ↔ Since Signals.PressesControl Signals.KeepsControl polls) ∧
      (keyboard.control = true → ∃ physical ∈ PhysicalKey.controls, IsDown polls physical) ∧
      (ControlsUpTogether polls →
        (keyboard.control = true ↔ ∃ physical ∈ PhysicalKey.controls, IsDown polls physical)) := by
  intro polls w keyboard hafter
  have htouch : InTouch polls w keyboard := inTouch_after? horderly hafter
  have hdown : keyboard.control = true → ∃ physical ∈ PhysicalKey.controls, IsDown polls physical :=
    fun hcontrol => isDown_of_since_presses horderly (htouch.control_iff.1 hcontrol)
  refine ⟨htouch.possible.testBit_control, htouch.control_iff, hdown, fun htogether => ⟨hdown, ?_⟩⟩
  rintro ⟨physical, hcontrol, hphysical⟩
  exact htouch.control_iff.2 (since_presses_of_isDown horderly htogether hcontrol hphysical)

/-- Both down, both up at once, and one down again. -/
theorem control_goes_with_the_key_moved_last_when_together :
    let uses : List WindowUse :=
      [.poll { pressed := [.leftControl, .rightControl] }, .display (Vector.replicate 2048 0x20),
        .poll { released := [.rightControl, .leftControl] }, .poll { pressed := [.rightControl] }]
    let polls := uses.filterMap WindowUse.signals?
    Orderly polls ∧ ControlsUpTogether polls ∧
      ∃ w keyboard, Window.after? .boxes uses = some (w, keyboard) ∧
        keyboard.control = true ∧ keyboard.rows[0].toNat.testBit 6 = true := by
  intro uses polls
  have horderly : Orderly polls := .of_mentioned (by decide) (by decide)
  have htogether : ControlsUpTogether polls := by decide
  have hdrawn : (Window.after? .boxes uses).isSome = true :=
    Window.isSome_after? (fun _ => rfl) uses
  obtain ⟨⟨w, keyboard⟩, hafter⟩ := Option.isSome_iff_exists.1 hdrawn
  obtain ⟨hrow, -, -, hiff⟩ :=
    control_goes_with_the_key_moved_last .boxes uses horderly w keyboard hafter
  have hcontrol : keyboard.control = true := (hiff htogether).2 ⟨.rightControl, by decide⟩
  exact ⟨horderly, htogether, w, keyboard, hafter, hcontrol, hrow.2 hcontrol⟩

/-- The left one goes down, the right one does too, and the left one comes up: the right one is down
and the keyboard does not show it. -/
theorem control_comes_up_beside_the_other :
    let uses : List WindowUse :=
      [.poll { pressed := [.leftControl] }, .poll { pressed := [.rightControl] },
        .poll { released := [.leftControl] }]
    let polls := uses.filterMap WindowUse.signals?
    Orderly polls ∧ IsDown polls .rightControl ∧
      ∃ w keyboard, Window.after? .boxes uses = some (w, keyboard) ∧
        keyboard.control = false ∧ keyboard.rows[0].toNat.testBit 6 = false := by
  intro uses polls
  exact ⟨.of_mentioned (by decide) (by decide), by decide, _, _, rfl, by decide, by decide⟩

end Challenger1P
