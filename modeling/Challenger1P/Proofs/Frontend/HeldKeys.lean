import Challenger1P.Proofs.Frontend.Forwarding
import Challenger1P.Proofs.Keyboard.Contacts

/-!
# The keys held through the window

The window passes presses and releases on to the keyboard, each release for the key of the machine
that its press was passed on for. As long as the window system is orderly, the window's list, the
keyboard and the keys that are really down keep in touch (`InTouch`), whatever the shift keys do
between press and release.

* `InTouch.poll`: one more poll keeps them in touch.
* `inTouch_after?`: so does anything that is done with a new window.
* `InTouch.idle`, `InTouch.capsLock_iff`: what that says of a keyboard once every key is up.
-/

namespace Challenger1P

/-! ## Keys for modifiers -/

/-- The key stands for that key of the machine when no shift key is down. -/
def PhysicalKey.IsFor (physical : PhysicalKey) (key : Key) : Prop := physical.key? false = some key

instance (physical : PhysicalKey) (key : Key) : Decidable (physical.IsFor key) :=
  inferInstanceAs (Decidable (physical.key? false = some key))

theorem PhysicalKey.isFor_capsLock {physical : PhysicalKey} :
    physical.IsFor .capsLock ↔ physical = .capsLock := by
  cases physical <;> simp [IsFor, key?, characters?]

theorem PhysicalKey.isFor_control {physical : PhysicalKey} :
    physical.IsFor .control ↔ physical = .leftControl ∨ physical = .rightControl := by
  cases physical <;> simp [IsFor, key?, characters?]

/-- What stands for a modifier does so whatever the shift keys do. -/
theorem PhysicalKey.key?_eq_some_iff {physical : PhysicalKey} {key : Key} (hkey : key.Modifier)
    (shifted : Bool) : physical.key? shifted = some key ↔ physical.IsFor key := by
  rcases Key.modifier_iff.1 hkey with rfl | rfl <;> cases physical <;>
    simp [IsFor, key?, characters?]

/-! ## The uses of a window -/

/-- What is done with a window. -/
inductive WindowUse where
  | display (screen : Screen)
  | poll (signals : Signals)

/-- What the window system says at a use, if it is asked. -/
def WindowUse.signals? : WindowUse → Option Signals
  | .display _ => none
  | .poll signals => some signals

namespace Window

/-- The window and the keyboard after a use, if it has a result. -/
def use? : Window × Keyboard → WindowUse → Option (Window × Keyboard)
  | (w, keyboard), .display screen => (w.display? screen).map fun w => (w, keyboard)
  | (w, keyboard), .poll signals =>
    let polled := w.poll signals keyboard
    some (polled.window, polled.keyboard)

/-- A new window and a new keyboard after all of these uses. -/
def after? (glyphs : Glyphs) (uses : List WindowUse) : Option (Window × Keyboard) :=
  uses.foldlM use? ({ glyphs }, {})

theorem held_of_display? {w w' : Window} {screen : Screen} (h : w.display? screen = some w') :
    w'.held = w.held := by
  obtain ⟨picture, -, rfl⟩ := Option.map_eq_some_iff.1 h
  rfl

/-- The window has a shape for every code, and a picture with room for a screen. -/
def Ready (w : Window) : Prop :=
  (∀ code, w.glyphs.has code = true) ∧ Picture.size ≤ w.picture.size

theorem Ready.exists_display? {w : Window} (h : w.Ready) (screen : Screen) :
    ∃ w', w.display? screen = some w' ∧ w'.Ready := by
  have hcovered : screen.covered w.glyphs = true := by
    rw [Screen.covered, Array.all_eq_true']
    exact fun code _ => h.1 code
  obtain ⟨picture, hdraw, hsize⟩ :
      ∃ picture, screen.draw? w.glyphs w.picture = some picture ∧ picture.size = w.picture.size :=
    ⟨_, if_pos ⟨h.2, hcovered⟩, Array.size_mapIdx⟩
  exact ⟨{ w with picture, stale := true }, display?_of_draw? hdraw, h.1, hsize ▸ h.2⟩

theorem Ready.poll {w : Window} (h : w.Ready) (s : Signals) (keyboard : Keyboard) :
    (w.poll s keyboard).window.Ready := by
  unfold Window.poll
  split <;> exact h

/-- With a shape for every code, nothing that is done with a window fails. -/
theorem isSome_after? {glyphs : Glyphs} (hglyphs : ∀ code, glyphs.has code = true)
    (uses : List WindowUse) : (after? glyphs uses).isSome = true := by
  have hready : ∀ (uses : List WindowUse) {w : Window}, w.Ready → ∀ keyboard : Keyboard,
      (uses.foldlM use? (w, keyboard)).isSome = true := by
    intro uses
    induction uses with
    | nil => exact fun _ _ => rfl
    | cons use rest ih =>
      intro w h keyboard
      cases use with
      | display screen =>
        obtain ⟨w', hw', h'⟩ := h.exists_display? screen
        rw [List.foldlM_cons, use?, hw']
        exact ih h' keyboard
      | poll signals => exact ih (h.poll signals keyboard) _
  have hsize : (Picture.blank).size = Picture.size := Array.size_replicate
  exact hready uses ⟨hglyphs, Nat.le_of_eq hsize.symm⟩ {}

theorem after?_append_singleton (glyphs : Glyphs) (uses : List WindowUse) (use : WindowUse) :
    after? glyphs (uses ++ [use]) = (after? glyphs uses).bind fun state => use? state use :=
  foldlM_append_singleton use? ({ glyphs }, {}) uses use

end Window

/-! ## The window and the keyboard -/

/-- What a window and a keyboard know after these polls. -/
structure InTouch (polls : List Signals) (w : Window) (keyboard : Keyboard) : Prop where
  holds : Holds w.held (standsFor polls)
  possible : keyboard.Possible
  /-- But for caps lock, a key is down on the keyboard only for a key that is down. -/
  exists_standsFor : ∀ key ∈ keyboard.keysDown, key ≠ .capsLock →
    ∃ physical, standsFor polls physical = some key
  /-- A modifier is down since a key for it went down, if none came up after that. Caps lock is down
  at first. -/
  modifier_iff : ∀ key : Key, key.Modifier →
    (key ∈ keyboard.keysDown ↔
      Since (fun s => ∃ physical ∈ s.pressed, physical.IsFor key)
          (fun s => ∀ physical ∈ s.released, ¬ physical.IsFor key) polls ∨
        key = .capsLock ∧ ∀ s ∈ polls, ∀ physical ∈ s.released, ¬ physical.IsFor key)

theorem inTouch_nil (glyphs : Glyphs) : InTouch [] { glyphs } {} where
  holds := fun _ => rfl
  possible := fun _ h => nomatch h
  exists_standsFor := fun _ hdown hne => absurd (List.mem_singleton.1 hdown) hne
  modifier_iff := by
    intro key _
    have hdown : key ∈ ({} : Keyboard).keysDown ↔ key = .capsLock := List.mem_singleton
    simp [hdown, not_since_nil]

namespace InTouch

variable {polls : List Signals} {w : Window} {keyboard : Keyboard} {s : Signals}

theorem poll_eq (w : Window) (hs : Window.gone s = false) (keyboard : Keyboard) :
    (w.poll s keyboard).window.held = (Window.forward s w.held keyboard).1 ∧
      (w.poll s keyboard).keyboard = (Window.forward s w.held keyboard).2 := by
  rw [Window.poll_of_present hs]
  exact ⟨rfl, rfl⟩

/-- A poll passes on every release for the key of the machine that the press was passed on for. -/
theorem keyboard_poll (h : InTouch polls w keyboard) (hs : Orderly (polls ++ [s]))
    (other : Keyboard) :
    (w.poll s other).keyboard =
      s.typed.foldl Keyboard.press ((s.letGo (standsFor polls)).foldl Keyboard.release other) := by
  rw [(poll_eq w hs.consistent_last.present other).2]
  exact (h.holds.forward hs.consistent_last (fun _ => hs.standsFor_of_pressed) other).2

theorem poll (h : InTouch polls w keyboard) (hs : Orderly (polls ++ [s])) :
    InTouch (polls ++ [s]) (w.poll s keyboard).window (w.poll s keyboard).keyboard where
  holds := by
    have hforward := h.holds.forward hs.consistent_last (fun _ => hs.standsFor_of_pressed) keyboard
    rw [(poll_eq w hs.consistent_last.present keyboard).1]
    exact fun key => (hforward.1 key).trans (by rw [hs.standsFor_append])
  possible := by
    rw [h.keyboard_poll hs]
    exact (h.possible.foldl_release _).foldl_press _
  exists_standsFor := by
    intro key hkey hne
    rw [h.keyboard_poll hs] at hkey
    rcases Keyboard.mem_keysDown_foldl_press hkey with htyped | hdown
    · obtain ⟨physical, hpressed, hstood⟩ := List.mem_filterMap.1 htyped
      exact ⟨physical, by rw [hs.standsFor_append, if_pos hpressed, hstood]⟩
    · obtain ⟨hdown, hletGo⟩ := h.possible.mem_keysDown_foldl_release.1 hdown
      obtain ⟨physical, hstands⟩ := h.exists_standsFor key hdown hne
      have hpressed : physical ∉ s.pressed := fun hpressed => by
        rw [hs.standsFor_of_pressed hpressed] at hstands
        cases hstands
      have hreleased : physical ∉ s.released := fun hreleased =>
        hletGo (List.mem_filterMap.2 ⟨physical, hreleased, hstands⟩)
      exact ⟨physical, by rw [hs.standsFor_append, if_neg hpressed, if_neg hreleased, hstands]⟩
  modifier_iff := by
    intro key hkey
    have htyped : key ∈ s.typed ↔ ∃ physical ∈ s.pressed, physical.IsFor key := by
      simp only [Signals.typed, List.mem_filterMap, PhysicalKey.key?_eq_some_iff hkey]
    have hletGo : key ∉ s.letGo (standsFor polls) ↔
        ∀ physical ∈ s.released, ¬ physical.IsFor key := by
      simp only [Signals.letGo, List.mem_filterMap, not_exists, not_and]
      refine forall₂_congr fun physical hreleased => not_congr ?_
      rw [hs.init.standsFor_eq_some_iff (PhysicalKey.key?_eq_some_iff hkey),
        and_iff_left (hs.isDown_of_released hreleased)]
    rw [h.keyboard_poll hs, (h.possible.foldl_release _).mem_keysDown_foldl_press_iff hkey,
      h.possible.mem_keysDown_foldl_release, h.modifier_iff key hkey, htyped, hletGo,
      since_append_singleton, List.forall_mem_append, List.forall_mem_singleton, or_and_right,
      and_assoc, ← or_assoc, and_comm (a := Since _ _ _)]

theorem display (h : InTouch polls w keyboard) {w' : Window} {screen : Screen}
    (hw : w.display? screen = some w') : InTouch polls w' keyboard :=
  { h with holds := by rw [Window.held_of_display? hw]; exact h.holds }

end InTouch

/-- Whatever is done with a new window, as long as the window system is orderly. -/
theorem inTouch_after? {glyphs : Glyphs} {uses : List WindowUse}
    (horderly : Orderly (uses.filterMap WindowUse.signals?)) {w : Window} {keyboard : Keyboard}
    (h : Window.after? glyphs uses = some (w, keyboard)) :
    InTouch (uses.filterMap WindowUse.signals?) w keyboard := by
  induction uses using List.reverseRecOn generalizing w keyboard with
  | nil =>
    cases h
    exact inTouch_nil glyphs
  | append_singleton uses use ih =>
    rw [Window.after?_append_singleton] at h
    obtain ⟨⟨w₀, keyboard₀⟩, hbefore, huse⟩ := Option.bind_eq_some_iff.1 h
    rw [List.filterMap_append] at horderly ⊢
    cases use with
    | display screen =>
      obtain ⟨w', hw, heq⟩ := Option.map_eq_some_iff.1 huse
      cases heq
      rw [List.filterMap_cons_none rfl, List.filterMap_nil, List.append_nil] at horderly ⊢
      exact (ih horderly hbefore).display hw
    | poll signals =>
      cases huse
      exact (ih horderly.init hbefore).poll horderly

namespace InTouch

variable {polls : List Signals} {w : Window} {keyboard : Keyboard}

theorem capsLock_iff (h : InTouch polls w keyboard) (horderly : Orderly polls) :
    keyboard.capsLock = true ↔
      IsDown polls .capsLock ∨ ∀ s ∈ polls, PhysicalKey.capsLock ∉ s.released := by
  have hmodifier := h.modifier_iff .capsLock (by decide)
  simp only [PhysicalKey.isFor_capsLock, exists_eq_right, true_and, List.forall_mem_ne']
    at hmodifier
  rw [← h.possible.capsLock_mem_keysDown_iff, hmodifier, horderly.isDown_iff_since]

/-- With every key up, nothing is down on the keyboard but perhaps caps lock. -/
theorem idle (h : InTouch polls w keyboard) (hup : ∀ physical, ¬ IsDown polls physical) :
    keyboard.held = none ∧ keyboard.control = false := by
  have hnone : ∀ key ∈ keyboard.keysDown, key = .capsLock := fun key hkey => by
    by_contra hne
    obtain ⟨physical, hstands⟩ := h.exists_standsFor key hkey hne
    exact hup physical (isDown_of_standsFor hstands)
  constructor
  · refine Option.eq_none_iff_forall_not_mem.2 fun key hkey => ?_
    have hordinary := Key.ordinary_iff.1 (h.possible key hkey)
    exact hordinary.2.1 (hnone key (Keyboard.mem_keysDown_iff.2 (Or.inr (Or.inr hkey))))
  · rw [← Bool.not_eq_true, ← h.possible.control_mem_keysDown_iff]
    exact fun hcontrol => nomatch hnone .control hcontrol

end InTouch

/-- Whatever is done with a new window and a new keyboard, as long as the window system is orderly,
the window's list holds just the keys that are down and stood for something when they went down,
each once and with that. A poll passes on each release for the key that the press was passed on for.
So with every key up no key is down on the keyboard, but for caps lock if its key has never come up. -/
theorem no_key_is_left_down (glyphs : Glyphs) (uses : List WindowUse)
    (horderly : Orderly (uses.filterMap WindowUse.signals?)) :
    let polls := uses.filterMap WindowUse.signals?
    ((∀ code, glyphs.has code = true) → (Window.after? glyphs uses).isSome = true) ∧
      ∀ w keyboard, Window.after? glyphs uses = some (w, keyboard) →
        (∀ physical, w.held.filter (·.1 = physical) =
          ((standsFor polls physical).map fun key => (physical, key)).toList) ∧
        (∀ s, Orderly (polls ++ [s]) → ∀ other : Keyboard,
          (w.poll s other).keyboard =
            (s.pressed.filterMap fun physical => physical.key? s.shifted).foldl Keyboard.press
              ((s.released.filterMap (standsFor polls)).foldl Keyboard.release other)) ∧
        ((∀ physical, ¬ IsDown polls physical) →
          keyboard.held = none ∧ keyboard.control = false ∧
            keyboard.rows =
              #v[if ∀ s ∈ polls, PhysicalKey.capsLock ∉ s.released then 0x01 else 0,
                0, 0, 0, 0, 0, 0, 0]) := by
  intro polls
  refine ⟨fun hglyphs => Window.isSome_after? hglyphs uses, fun w keyboard hafter => ?_⟩
  have htouch : InTouch polls w keyboard := inTouch_after? horderly hafter
  refine ⟨htouch.holds, fun s hs other => htouch.keyboard_poll hs other, fun hup => ?_⟩
  obtain ⟨hheld, hcontrol⟩ := htouch.idle hup
  refine ⟨hheld, hcontrol, ?_⟩
  rw [keyboard.rows_of_idle hheld hcontrol]
  simp only [htouch.capsLock_iff horderly, hup, false_or]

/-- Keys that go down under shift and come up without it, one that the keyboard does not have, and
the caps lock key. -/
theorem no_key_is_left_down_after_shift :
    let uses : List WindowUse :=
      [.poll { down := [.leftShift], pressed := [.leftShift, .digit 2, .digit 8] },
        .display (Vector.replicate 2048 0x20),
        .poll { released := [.leftShift, .digit 2], pressed := [.capsLock], takesPicture := false },
        .poll { released := [.capsLock, .digit 8] }]
    let polls := uses.filterMap WindowUse.signals?
    let next : Signals := { pressed := [.digit 8] }
    Orderly polls ∧ Orderly (polls ++ [next]) ∧ (∀ physical, ¬ IsDown polls physical) ∧
      ∃ w keyboard, Window.after? .boxes uses = some (w, keyboard) ∧
        (w.poll next keyboard).keyboard = keyboard.press (.char '8') ∧
        keyboard.held = none ∧ keyboard.rows = #v[0, 0, 0, 0, 0, 0, 0, 0] := by
  intro uses polls next
  have horderly : Orderly polls := .of_mentioned (by decide) (by decide)
  have hnext : Orderly (polls ++ [next]) := .of_mentioned (by decide) (by decide)
  have hup : ∀ physical, ¬ IsDown polls physical := fun physical hdown =>
    (by decide : ∀ key ∈ mentioned polls, ¬ IsDown polls key) physical
      (mem_mentioned_of_isDown hdown) hdown
  obtain ⟨hdrawn, hall⟩ := no_key_is_left_down .boxes uses horderly
  obtain ⟨⟨w, keyboard⟩, hafter⟩ := Option.isSome_iff_exists.1 (hdrawn fun _ => rfl)
  obtain ⟨-, hpoll, hidle⟩ := hall w keyboard hafter
  obtain ⟨hheld, -, hrows⟩ := hidle hup
  refine ⟨horderly, hnext, hup, w, keyboard, hafter, hpoll next hnext keyboard, hheld, ?_⟩
  rw [hrows, if_neg (by decide)]

end Challenger1P
