import Challenger1P.Keyboard.Matrix

/-!
# What one event does to a keyboard

A key is a modifier, or an ordinary one, or none that the keyboard has. A modifier is held for
itself, an ordinary key takes the place of the one before, and the program's selection of rows is
apart from both (`press_eq`, `release_eq`).

* `capsLock_apply`, `control_apply`, `held_apply`, `selected_apply`: what becomes of each part.
* `apply_comm`: events about different parts do the same in either order.
* `Possible.mem_keysDown_release`, `Possible.mem_keysDown_press_iff`: which keys are down after it.
-/

namespace Challenger1P

/-! ## Keys -/

namespace Key

/-- The keyboard has the key, and holds it beside others. -/
def Modifier (key : Key) : Prop := ∃ s ∈ key.stroke?, s.modifier = true

/-- The keyboard has the key, and it is no modifier. -/
def Ordinary (key : Key) : Prop := ∃ s ∈ key.stroke?, s.modifier = false

instance : DecidablePred Modifier := fun key =>
  inferInstanceAs (Decidable (∃ s ∈ key.stroke?, s.modifier = true))

instance : DecidablePred Ordinary := fun key =>
  inferInstanceAs (Decidable (∃ s ∈ key.stroke?, s.modifier = false))

theorem exists_keycap_of_stroke? {c : Char} {s : Stroke} (h : (char c).stroke? = some s) :
    ∃ cap ∈ keycaps, s.contact = cap.contact ∧ s.modifier = false ∧
      (c.toLower = cap.plain ∧ s.shifted = false ∨
        cap.upper = some c.toLower ∧ s.shifted = true) := by
  obtain ⟨cap, hmem, hcap⟩ := List.exists_of_findSome?_eq_some h
  refine ⟨cap, hmem, ?_⟩
  unfold Keycap.stroke? at hcap
  split at hcap
  · cases hcap
    exact ⟨rfl, rfl, Or.inl ⟨‹_›, rfl⟩⟩
  · split at hcap
    · cases hcap
      exact ⟨rfl, rfl, Or.inr ⟨‹_›, rfl⟩⟩
    · cases hcap

theorem modifier_iff {key : Key} : key.Modifier ↔ key = capsLock ∨ key = control := by
  cases key with
  | char c =>
    refine iff_of_false ?_ (by simp)
    rintro ⟨s, hs, hmodifier⟩
    obtain ⟨-, -, -, h, -⟩ := exists_keycap_of_stroke? hs
    rw [h] at hmodifier
    cases hmodifier
  | _ => decide

theorem ordinary_iff {key : Key} :
    key.Ordinary ↔ key.stroke?.isSome ∧ key ≠ capsLock ∧ key ≠ control := by
  cases key with
  | char c =>
    refine ⟨fun ⟨s, hs, _⟩ => ⟨Option.isSome_of_mem hs, by simp⟩, fun ⟨h, _⟩ => ?_⟩
    obtain ⟨s, hs⟩ := Option.isSome_iff_exists.1 h
    obtain ⟨-, -, -, hmodifier, -⟩ := exists_keycap_of_stroke? hs
    exact ⟨s, hs, hmodifier⟩
  | _ => decide

theorem not_ordinary_of_modifier {key : Key} (h : key.Modifier) : ¬ key.Ordinary := fun hordinary =>
  (modifier_iff.1 h).elim (ordinary_iff.1 hordinary).2.1 (ordinary_iff.1 hordinary).2.2

theorem ne_of_stroke?_eq_none {key : Key} (h : key.stroke? = none) :
    key ≠ capsLock ∧ key ≠ control ∧ ¬ key.Ordinary := by
  refine ⟨?_, ?_, ?_⟩
  · rintro rfl
    cases h
  · rintro rfl
    cases h
  · rintro ⟨s, hs, -⟩
    rw [h] at hs
    cases hs

/-- The keyboard has a key as one or the other, or does not have it. -/
theorem modifier_or_ordinary_or_unmapped (key : Key) :
    key.Modifier ∨ key.Ordinary ∨ key.stroke? = none := by
  cases h : key.stroke? with
  | none => exact Or.inr (Or.inr rfl)
  | some s =>
    cases hs : s.modifier with
    | true => exact Or.inl ⟨s, h, hs⟩
    | false => exact Or.inr (Or.inl ⟨s, h, hs⟩)

end Key

/-! ## Events -/

namespace KeyEvent

/-- The key that an event is about. -/
def key? : KeyEvent → Option Key
  | .press key | .release key => some key
  | .select _ => none

/-- The rows that an event selects. -/
def rows? : KeyEvent → Option UInt8
  | .select rows => some rows
  | .press _ | .release _ => none

/-- An ordinary key goes down. -/
def PressesOrdinary (e : KeyEvent) : Prop := ∃ key : Key, key.Ordinary ∧ e = .press key

theorem pressesOrdinary_press {key : Key} : (press key).PressesOrdinary ↔ key.Ordinary :=
  ⟨fun ⟨_, h, heq⟩ => by cases heq; exact h, fun h => ⟨key, h, rfl⟩⟩

/-- The parts of a keyboard. -/
inductive Part where
  | modifiers
  | ordinary
  | selection
  deriving DecidableEq, Repr

/-- The part of the keyboard that an event is about. -/
def part : KeyEvent → Part
  | .press key | .release key => if key.Modifier then .modifiers else .ordinary
  | .select _ => .selection

theorem part_eq_modifiers_iff {e : KeyEvent} :
    e.part = .modifiers ↔ ∃ key : Key, key.Modifier ∧ (e = .press key ∨ e = .release key) := by
  cases e <;> grind [part]

/-- What goes by one part of a keyboard only does not depend on the order of two events that are
about different parts. -/
theorem comm_of_part {σ β : Type} {step : σ → KeyEvent → σ} {f : σ → β} {part : Part}
    (hcongr : ∀ {s t : σ} (e : KeyEvent), f s = f t → f (step s e) = f (step t e))
    (hframe : ∀ (s : σ) (e : KeyEvent), e.part ≠ part → f (step s e) = f s) (s : σ)
    {one two : KeyEvent} (h : one.part ≠ two.part) :
    f (step (step s one) two) = f (step (step s two) one) := by
  by_cases hone : one.part = part
  · have htwo : two.part ≠ part := hone ▸ h.symm
    rw [hframe _ two htwo]
    exact hcongr one (hframe s two htwo).symm
  · rw [hframe _ one hone]
    exact hcongr two (hframe s one hone)

end KeyEvent

/-! ## One event -/

attribute [ext] Keyboard

namespace Keyboard

variable (k : Keyboard)

theorem press_eq (key : Key) :
    k.press key =
      if key = .capsLock then { k with capsLock := true }
      else if key = .control then { k with control := true }
      else if key.Ordinary then { k with held := some key }
      else k := by
  cases key <;> simp [press, Key.ordinary_iff]

theorem release_eq (key : Key) :
    k.release key =
      if key = .capsLock then { k with capsLock := false }
      else if key = .control then { k with control := false }
      else if k.held = some key then { k with held := none }
      else k := by
  cases key <;> simp [release]

theorem capsLock_apply (e : KeyEvent) :
    (k.apply e).capsLock =
      if e.key? = some .capsLock then decide (e = .press .capsLock) else k.capsLock := by
  cases e with
  | press key => rw [apply, press_eq]; grind [KeyEvent.key?]
  | release key => rw [apply, release_eq]; grind [KeyEvent.key?]
  | select rows => rfl

theorem control_apply (e : KeyEvent) :
    (k.apply e).control =
      if e.key? = some .control then decide (e = .press .control) else k.control := by
  cases e with
  | press key => rw [apply, press_eq]; grind [KeyEvent.key?]
  | release key => rw [apply, release_eq]; grind [KeyEvent.key?]
  | select rows => rfl

theorem held_apply (e : KeyEvent) :
    (k.apply e).held =
      match e with
      | .press key => if key.Ordinary then some key else k.held
      | .release key => if ¬ key.Modifier ∧ k.held = some key then none else k.held
      | .select _ => k.held := by
  cases e with
  | press key => rw [apply, press_eq]; grind [Key.ordinary_iff]
  | release key => rw [apply, release_eq]; grind [Key.modifier_iff]
  | select rows => rfl

theorem selected_apply (e : KeyEvent) : (k.apply e).selected = e.rows?.getD k.selected := by
  cases e with
  | press key => rw [apply, press_eq]; grind [KeyEvent.rows?]
  | release key => rw [apply, release_eq]; grind [KeyEvent.rows?]
  | select rows => rfl

/-- The keyboard holds no key as an ordinary one that is none. -/
def Possible : Prop := ∀ key ∈ k.held, key.Ordinary

variable {k}

theorem Possible.held_apply_iff (hk : k.Possible) {e : KeyEvent} {key : Key} :
    (k.apply e).held = some key ↔
      key.Ordinary ∧
        (e = .press key ∨ (e ≠ .release key ∧ ¬ e.PressesOrdinary) ∧ k.held = some key) := by
  have hheld : k.held = some key → key.Ordinary := hk key
  rw [held_apply]
  cases e with
  | press other =>
    simp only [KeyEvent.pressesOrdinary_press]
    grind
  | release other =>
    have : ¬ (KeyEvent.release other).PressesOrdinary := by rintro ⟨_, -, h⟩; cases h
    have := @Key.not_ordinary_of_modifier other
    grind
  | select rows =>
    have : ¬ (KeyEvent.select rows).PressesOrdinary := by rintro ⟨_, -, h⟩; cases h
    grind

theorem Possible.apply (hk : k.Possible) (e : KeyEvent) : (k.apply e).Possible :=
  fun _ hkey => (hk.held_apply_iff.1 hkey).1

/-! ## Keys that the keyboard does not have -/

theorem press_of_stroke?_eq_none {key : Key} (h : key.stroke? = none) : k.press key = k := by
  obtain ⟨hcapsLock, hcontrol, hordinary⟩ := Key.ne_of_stroke?_eq_none h
  rw [press_eq, if_neg hcapsLock, if_neg hcontrol, if_neg hordinary]

theorem Possible.release_of_stroke?_eq_none (hk : k.Possible) {key : Key} (h : key.stroke? = none) :
    k.release key = k := by
  obtain ⟨hcapsLock, hcontrol, hordinary⟩ := Key.ne_of_stroke?_eq_none h
  have hheld : k.held ≠ some key := fun hheld => hordinary (hk key hheld)
  rw [release_eq, if_neg hcapsLock, if_neg hcontrol, if_neg hheld]

/-! ## Two events -/

/-- Events about different parts of a keyboard do the same in either order. -/
theorem apply_comm (k : Keyboard) {one two : KeyEvent} (h : one.part ≠ two.part) :
    (k.apply one).apply two = (k.apply two).apply one := by
  have hmodifiers : ∀ e : KeyEvent, e.part ≠ .modifiers →
      e.key? ≠ some .capsLock ∧ e.key? ≠ some .control := by
    have hcapsLock : Key.capsLock.Modifier := by decide
    have hcontrol : Key.control.Modifier := by decide
    intro e he
    cases e <;> grind [KeyEvent.part, KeyEvent.key?]
  refine Keyboard.ext ?_ ?_ ?_ ?_
  · exact KeyEvent.comm_of_part (f := capsLock) (fun e heq => by simp [capsLock_apply, heq])
      (fun l e he => by rw [capsLock_apply, if_neg (hmodifiers e he).1]) k h
  · exact KeyEvent.comm_of_part (f := control) (fun e heq => by simp [control_apply, heq])
      (fun l e he => by rw [control_apply, if_neg (hmodifiers e he).2]) k h
  · refine KeyEvent.comm_of_part (f := held) (fun e heq => by simp [held_apply, heq])
      (fun l e (he : e.part ≠ .ordinary) => ?_) k h
    have := @Key.not_ordinary_of_modifier
    cases e <;> grind [KeyEvent.part, held_apply]
  · refine KeyEvent.comm_of_part (f := selected) (fun e heq => by simp [selected_apply, heq])
      (fun l e (he : e.part ≠ .selection) => ?_) k h
    cases e <;> grind [KeyEvent.part, selected_apply, KeyEvent.rows?]

/-! ## The keys that are down -/

theorem mem_keysDown_iff {key : Key} :
    key ∈ k.keysDown ↔
      k.capsLock = true ∧ key = .capsLock ∨ k.control = true ∧ key = .control ∨
        k.held = some key := by
  unfold keysDown
  cases k.capsLock <;> cases k.control <;> simp

theorem Possible.capsLock_mem_keysDown_iff (hk : k.Possible) :
    Key.capsLock ∈ k.keysDown ↔ k.capsLock = true := by
  have hheld : k.held ≠ some .capsLock := fun h => (Key.ordinary_iff.1 (hk _ h)).2.1 rfl
  simp [mem_keysDown_iff, hheld]

theorem Possible.control_mem_keysDown_iff (hk : k.Possible) :
    Key.control ∈ k.keysDown ↔ k.control = true := by
  have hheld : k.held ≠ some .control := fun h => (Key.ordinary_iff.1 (hk _ h)).2.2 rfl
  simp [mem_keysDown_iff, hheld]

theorem Possible.press (hk : k.Possible) (key : Key) : (k.press key).Possible :=
  hk.apply (.press key)

theorem Possible.release (hk : k.Possible) (key : Key) : (k.release key).Possible :=
  hk.apply (.release key)

theorem Possible.mem_keysDown_release (hk : k.Possible) {key other : Key} :
    key ∈ (k.release other).keysDown ↔ key ∈ k.keysDown ∧ key ≠ other := by
  have hheld : k.held = some key → key ≠ .capsLock ∧ key ≠ .control := fun h =>
    (Key.ordinary_iff.1 (hk key h)).2
  rw [release_eq]
  simp only [mem_keysDown_iff]
  grind

theorem mem_keysDown_press {key other : Key} (h : key ∈ (k.press other).keysDown) :
    key = other ∨ key ∈ k.keysDown := by
  rw [press_eq] at h
  simp only [mem_keysDown_iff] at h ⊢
  grind

/-- A modifier stays down whatever other key is pressed. -/
theorem Possible.mem_keysDown_press_iff (hk : k.Possible) {key other : Key} (hkey : key.Modifier) :
    key ∈ (k.press other).keysDown ↔ key = other ∨ key ∈ k.keysDown := by
  have hheld : ∀ l : Keyboard, l.Possible → l.held ≠ some key := fun l hl h =>
    Key.not_ordinary_of_modifier hkey (hl key h)
  have hnow := hheld k hk
  rw [Key.modifier_iff] at hkey
  rw [press_eq]
  simp only [mem_keysDown_iff]
  grind

/-! ## Keys one after the other -/

theorem Possible.foldl_press (hk : k.Possible) (keys : List Key) :
    (keys.foldl Keyboard.press k).Possible :=
  List.foldlRecOn keys Keyboard.press hk fun _ h key _ => h.press key

theorem Possible.foldl_release (hk : k.Possible) (keys : List Key) :
    (keys.foldl Keyboard.release k).Possible :=
  List.foldlRecOn keys Keyboard.release hk fun _ h key _ => h.release key

theorem Possible.mem_keysDown_foldl_release (hk : k.Possible) {key : Key} {keys : List Key} :
    key ∈ (keys.foldl Keyboard.release k).keysDown ↔ key ∈ k.keysDown ∧ key ∉ keys := by
  induction keys generalizing k with
  | nil => simp
  | cons other rest ih =>
    rw [List.foldl_cons, ih (hk.release other), hk.mem_keysDown_release, List.mem_cons, not_or,
      and_assoc]

theorem mem_keysDown_foldl_press {key : Key} {keys : List Key}
    (h : key ∈ (keys.foldl Keyboard.press k).keysDown) : key ∈ keys ∨ key ∈ k.keysDown := by
  induction keys generalizing k with
  | nil => exact Or.inr h
  | cons other rest ih =>
    rcases ih h with hrest | hother
    · exact Or.inl (List.mem_cons_of_mem other hrest)
    · rcases mem_keysDown_press hother with rfl | hdown
      · exact Or.inl List.mem_cons_self
      · exact Or.inr hdown

theorem Possible.mem_keysDown_foldl_press_iff (hk : k.Possible) {key : Key} (hkey : key.Modifier)
    {keys : List Key} :
    key ∈ (keys.foldl Keyboard.press k).keysDown ↔ key ∈ keys ∨ key ∈ k.keysDown := by
  induction keys generalizing k with
  | nil => simp
  | cons other rest ih =>
    rw [List.foldl_cons, ih (hk.press other), hk.mem_keysDown_press_iff hkey, List.mem_cons,
      ← or_assoc, or_comm (a := key ∈ rest)]

end Keyboard

end Challenger1P
