import Challenger1P.Proofs.Keyboard.Port
import Challenger1P.Proofs.Since

/-!
# What a keyboard remembers

A keyboard that was just switched on is told by what has happened to it since (`Follows`). Each
modifier goes by its own last event, the ordinary key by the last one that was pressed, and the rows
that are read by the last ones that were selected.

* `capsLock_after`, `control_after`, `held_after`, `selected_after`: what becomes of each part.
* `possible_after`: no history gets a keyboard to hold a key that it does not have.
* `sound_after`, `keyboard_after`: what is in store stays sound, and stays the keyboard.
-/

namespace Challenger1P

/-! ## The last event -/

namespace KeyEvent

/-- The last event of a history that is about a key. -/
def lastAbout (key : Key) (history : List KeyEvent) : Option KeyEvent :=
  (history.filter fun e => e.key? = some key).getLast?

/-- The rows that a history selected last. There are none before. -/
def lastSelected (history : List KeyEvent) : UInt8 := (history.filterMap rows?).getLastD 0

theorem lastAbout_append_singleton (key : Key) (history : List KeyEvent) (e : KeyEvent) :
    lastAbout key (history ++ [e]) =
      if e.key? = some key then some e else lastAbout key history := by
  rw [lastAbout, List.filter_append, List.getLast?_append, List.filter_cons, List.filter_nil]
  split <;> simp_all [lastAbout]

theorem lastSelected_append_singleton (history : List KeyEvent) (e : KeyEvent) :
    lastSelected (history ++ [e]) = e.rows?.getD (lastSelected history) := by
  rw [lastSelected, List.filterMap_append, List.getLastD_eq_getLast?, List.getLast?_append]
  cases e <;> simp [rows?, lastSelected, List.getLastD_eq_getLast?]

end KeyEvent

/-! ## Histories -/

namespace Keyboard

/-- The keyboard that was just switched on, after a history. -/
def after (history : List KeyEvent) : Keyboard := history.foldl apply {}

theorem after_append_singleton (history : List KeyEvent) (e : KeyEvent) :
    after (history ++ [e]) = (after history).apply e := List.foldl_append ..

theorem possible_after (history : List KeyEvent) : (after history).Possible := by
  induction history using List.reverseRecOn with
  | nil => exact fun key hkey => nomatch hkey
  | append_singleton history e ih =>
    rw [after_append_singleton]
    exact ih.apply e

theorem capsLock_after (history : List KeyEvent) :
    (after history).capsLock = true ↔
      KeyEvent.lastAbout .capsLock history = none ∨
        KeyEvent.lastAbout .capsLock history = some (.press .capsLock) := by
  induction history using List.reverseRecOn with
  | nil => exact iff_of_true rfl (Or.inl rfl)
  | append_singleton history e ih =>
    rw [after_append_singleton, capsLock_apply, KeyEvent.lastAbout_append_singleton]
    split <;> simp [ih]

theorem control_after (history : List KeyEvent) :
    (after history).control = true ↔
      KeyEvent.lastAbout .control history = some (.press .control) := by
  induction history using List.reverseRecOn with
  | nil => exact iff_of_false Bool.false_ne_true nofun
  | append_singleton history e ih =>
    rw [after_append_singleton, control_apply, KeyEvent.lastAbout_append_singleton]
    split <;> simp [ih]

theorem held_after (history : List KeyEvent) (key : Key) :
    (after history).held = some key ↔
      key.Ordinary ∧
        Since (· = .press key) (fun e => e ≠ .release key ∧ ¬ e.PressesOrdinary) history := by
  induction history using List.reverseRecOn with
  | nil => exact iff_of_false nofun fun h => not_since_nil h.2
  | append_singleton history e ih =>
    rw [after_append_singleton, (possible_after history).held_apply_iff, ih,
      since_append_singleton]
    grind

theorem selected_after (history : List KeyEvent) :
    (after history).selected = KeyEvent.lastSelected history := by
  induction history using List.reverseRecOn with
  | nil => rfl
  | append_singleton history e ih =>
    rw [after_append_singleton, selected_apply, ih, KeyEvent.lastSelected_append_singleton]

end Keyboard

/-! ## The port after a history -/

namespace KeyboardPort

/-- The port that was just switched on, after a history. -/
def after (history : List KeyEvent) : KeyboardPort := history.foldl apply powerOn

theorem after_append_singleton (history : List KeyEvent) (e : KeyEvent) :
    after (history ++ [e]) = (after history).apply e := List.foldl_append ..

theorem sound_after (history : List KeyEvent) : (after history).Sound := by
  induction history using List.reverseRecOn with
  | nil => exact sound_powerOn
  | append_singleton history e ih =>
    rw [after_append_singleton]
    exact ih.apply e

/-- Whatever happens to both, the port stays the keyboard. -/
theorem keyboard_after (history : List KeyEvent) :
    (after history).keyboard = Keyboard.after history := by
  induction history using List.reverseRecOn with
  | nil => exact keyboard_powerOn
  | append_singleton history e ih =>
    rw [after_append_singleton, (sound_after history).keyboard_apply, ih,
      Keyboard.after_append_singleton]

/-- What a history says of a port that was switched on before it. -/
structure Follows (p : KeyboardPort) (history : List KeyEvent) : Prop where
  /-- Caps lock is down if nothing has happened to it, or the last thing was a press. -/
  capsLock_iff : .capsLock ∈ p.modifiers ↔
    KeyEvent.lastAbout .capsLock history = none ∨
      KeyEvent.lastAbout .capsLock history = some (.press .capsLock)
  control_iff : .control ∈ p.modifiers ↔
    KeyEvent.lastAbout .control history = some (.press .control)
  /-- The ordinary key is the last one that was pressed, if that very key was not released since. -/
  ordinary_iff : ∀ key, p.ordinary = some key ↔
    key.Ordinary ∧
      Since (· = .press key) (fun e => e ≠ .release key ∧ ¬ e.PressesOrdinary) history
  /-- A row shows the keys that are down, and the left shift key if the ordinary one needs it. -/
  rows_eq : ∀ row : Fin 8, p.rows.get row =
    p.modifiers.foldr (fun key value => key.bits row ||| value) 0 |||
    p.ordinary.elim 0 (·.bits row) |||
    (if leftShift.row = row ∧ p.ordinary.any Key.shifted then leftShift.mask else 0)
  /-- The program reads the rows that were selected last, and changes nothing. -/
  read_eq : Device.read p =
    (((List.finRange 8).filter fun row : Fin 8 =>
        (KeyEvent.lastSelected history).toNat.testBit row).foldr
      (fun row value => p.rows.get row ||| value) 0, p)

theorem follows_after (history : List KeyEvent) : (after history).Follows history := by
  have hsound := sound_after history
  have hkeyboard := keyboard_after history
  have hcapsLock := Keyboard.capsLock_after history
  have hcontrol := Keyboard.control_after history
  have hheld := Keyboard.held_after history
  have hselected := Keyboard.selected_after history
  rw [← hkeyboard] at hcapsLock hcontrol hheld hselected
  refine ⟨?_, ?_, hheld, hsound.get_rows, ?_⟩
  · rw [← hcapsLock, keyboard, decide_eq_true_iff]
  · rw [← hcontrol, keyboard, decide_eq_true_iff]
  · rw [hsound.read_eq, ← hselected, hsound.rows_eq, ← Keyboard.sense_eq]
    rfl

/-- Whatever happens to a keyboard after it is switched on, what it has in store is sound, and its
history says which keys are down and what each row and any mask of rows shows. A key that the
keyboard does not have changes nothing, and events about different parts of the keyboard may come in
either order, whatever comes before and after them. All of this is the keyboard that the machine
runs with: it holds the same keys and shows the same. -/
theorem keyboard_follows_its_history (history : List KeyEvent) :
    let p := after history
    p.Sound ∧ p.Follows history ∧
      (∀ key : Key, key.stroke? = none →
        after (history ++ [.press key]) = p ∧ after (history ++ [.release key]) = p) ∧
      (∀ (one two : KeyEvent) (later : List KeyEvent), one.part ≠ two.part →
        after (history ++ one :: two :: later) = after (history ++ two :: one :: later)) ∧
      p.keyboard = Keyboard.after history ∧ p.rows = (Keyboard.after history).rows ∧
      (Device.read p).1 = (Device.read (Keyboard.after history)).1 := by
  intro p
  have hsound : p.Sound := sound_after history
  have hkeyboard : p.keyboard = Keyboard.after history := keyboard_after history
  refine ⟨hsound, follows_after history, fun key hkey => ⟨?_, ?_⟩, fun one two later h => ?_,
    hkeyboard, ?_, ?_⟩
  · rw [after_append_singleton]
    exact press_of_unmapped hkey
  · rw [after_append_singleton]
    exact release_of_unmapped hkey
  · simp only [after, List.foldl_append, List.foldl_cons]
    exact congrArg (later.foldl apply) (hsound.apply_comm h)
  · rw [hsound.rows_eq, hkeyboard]
  · rw [hsound.read_eq, hkeyboard]

/-- Typing an exclamation mark holds it, and the key that it shares with the digit is another key as
far as letting go is concerned. A letter that the keyboard does not have changes nothing. -/
theorem keyboard_follows_its_history_on_shared_key :
    let history : List KeyEvent :=
      [.release .capsLock, .press (.char '!'), .select 0x81, .release (.char '1')]
    (Key.char 'é').stroke? = none ∧
      KeyEvent.part (.press .control) ≠ KeyEvent.part (.release (.char '!')) ∧
      (after history).ordinary = some (.char '!') ∧ (after history).modifiers = [] ∧
      (after history).rows = #v[0x04, 0, 0, 0, 0, 0, 0, 0x80] ∧
      (Device.read (after history)).1 = 0x84 ∧
      after (history ++ [.press (.char 'é')]) = after history ∧
      after (history ++ [.press .control, .release (.char '!'), .select 1]) =
        after (history ++ [.release (.char '!'), .press .control, .select 1]) := by
  intro history
  obtain ⟨-, -, hunmapped, hcomm, -⟩ := keyboard_follows_its_history history
  have hnone : (Key.char 'é').stroke? = none := by decide
  have hpart : KeyEvent.part (.press .control) ≠ KeyEvent.part (.release (.char '!')) := by decide
  exact ⟨hnone, hpart, by decide, by decide, by decide, by decide, (hunmapped _ hnone).1,
    hcomm _ _ [.select 1] hpart⟩

end KeyboardPort

end Challenger1P
