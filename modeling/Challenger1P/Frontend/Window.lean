import Challenger1P.Frontend.Layout
import Challenger1P.Keyboard.Matrix
import Challenger1P.Screen.Raster

/-!
# The window

A machine whose screen is shown in a window, and whose keyboard is the user's. The window is polled:
a poll takes `Signals`, what the window system says has happened, hands the window system at most
one `Update`, and passes keys on to the machine's keyboard.

The picture is drawn when the machine's screen changes, and handed over at the next poll that finds
the window open. Releases are passed on before presses, each for the key that its own press stood
for, whatever the shift key does in between.
-/

namespace Challenger1P

/-- How large the window shows a pixel. -/
inductive WindowScale where
  | one
  | two
  | four
  | eight
  /-- As large as the user's screen has room for. -/
  | fitScreen
  deriving DecidableEq, Repr

def WindowScale.ofFactor : Nat → WindowScale
  | 1 => .one
  | 2 => .two
  | 4 => .four
  | 8 => .eight
  | _ => .fitScreen

/-- What is asked of the window system for a new window. -/
structure WindowRequest where
  title : String := "Superboard"
  width : Nat := Picture.width
  height : Nat := Picture.height
  resizable : Bool := true
  /-- Resizing stretches the picture and keeps its proportions. -/
  keepsAspect : Bool := true
  scale : WindowScale
  /-- How many updates a second the window system waits for. Zero: it does not wait. -/
  framesPerSecond : Nat := 0
  deriving DecidableEq, Repr

/-- What the window system says at a poll. -/
structure Signals where
  isOpen : Bool := true
  /-- The keys that are down now. -/
  down : List PhysicalKey := []
  pressed : List PhysicalKey := []
  released : List PhysicalKey := []
  /-- Whether a picture handed over now is taken. -/
  takesPicture : Bool := true

/-- What is handed to the window system. -/
inductive Update where
  /-- Nothing new to show. -/
  | unchanged
  | picture (pixels : Array UInt32)

structure Window where
  glyphs : Glyphs
  picture : Array UInt32 := Picture.blank
  /-- The picture has not been handed over since it was drawn. -/
  stale : Bool := true
  /-- The keys passed on as pressed and not yet as released, with what each stood for. -/
  held : List (PhysicalKey × Key) := []

structure Polled where
  /-- The window is still there. -/
  alive : Bool
  update : Option Update
  keyboard : Keyboard
  window : Window

/-- A list without the element at a place, which the last element takes. -/
def swapErase {α : Type} (l : List α) (i : Nat) : List α :=
  match l.getLast? with
  | none => []
  | some last => (l.set i last).dropLast

namespace Window

/-- Pass on a key that was released. -/
def release (held : List (PhysicalKey × Key)) (keyboard : Keyboard) (physical : PhysicalKey) :
    List (PhysicalKey × Key) × Keyboard :=
  match held.findIdx? (·.1 = physical) with
  | none => (held, keyboard)
  | some i =>
    match held[i]? with
    | none => (held, keyboard)
    | some (_, key) => (swapErase held i, keyboard.release key)

/-- Pass on a key that was pressed. -/
def press (shifted : Bool) (held : List (PhysicalKey × Key)) (keyboard : Keyboard)
    (physical : PhysicalKey) : List (PhysicalKey × Key) × Keyboard :=
  match physical.key? shifted with
  | none => (held, keyboard)
  | some key => (held ++ [(physical, key)], keyboard.press key)

/-- Pass on releases, then presses. -/
def forward (signals : Signals) (held : List (PhysicalKey × Key)) (keyboard : Keyboard) :
    List (PhysicalKey × Key) × Keyboard :=
  let shifted := signals.down.contains .leftShift || signals.down.contains .rightShift
  let (held, keyboard) := signals.released.foldl (fun (held, keyboard) => release held keyboard)
    (held, keyboard)
  signals.pressed.foldl (fun (held, keyboard) => press shifted held keyboard) (held, keyboard)

/-- Take note of a new screen, if it can be drawn. -/
def display? (w : Window) (screen : Screen) : Option Window :=
  match w with
  | { glyphs, picture, held, .. } =>
    (screen.draw? glyphs picture).map fun picture => { glyphs, picture, stale := true, held }

theorem display?_of_draw? {w : Window} {screen : Screen} {picture : Array UInt32}
    (h : screen.draw? w.glyphs w.picture = some picture) :
    w.display? screen = some { w with picture, stale := true } := by
  rw [display?, h]
  rfl

/-- Whether a poll finds the window gone. The F12 key closes it. -/
def gone (signals : Signals) : Bool := !signals.isOpen || signals.down.contains .f12

theorem gone_iff {signals : Signals} :
    gone signals = true ↔ signals.isOpen = false ∨ .f12 ∈ signals.down := by
  simp [gone]

theorem gone_eq_false_iff {signals : Signals} :
    gone signals = false ↔ signals.isOpen = true ∧ .f12 ∉ signals.down := by
  simp [gone]

def poll (w : Window) (signals : Signals) (keyboard : Keyboard) : Polled :=
  if gone signals then { alive := false, update := none, keyboard, window := w }
  else
    let (held, keyboard) := forward signals w.held keyboard
    { alive := !w.stale || signals.takesPicture
      update := some (if w.stale then .picture w.picture else .unchanged)
      keyboard
      window := { w with stale := false, held } }

theorem poll_of_gone {signals : Signals} (h : gone signals = true) (w : Window)
    (keyboard : Keyboard) :
    w.poll signals keyboard = { alive := false, update := none, keyboard, window := w } :=
  if_pos h

theorem poll_of_present {signals : Signals} (h : gone signals = false) (w : Window)
    (keyboard : Keyboard) :
    w.poll signals keyboard =
      { alive := !w.stale || signals.takesPicture
        update := some (if w.stale then .picture w.picture else .unchanged)
        keyboard := (forward signals w.held keyboard).2
        window := { w with stale := false, held := (forward signals w.held keyboard).1 } } :=
  if_neg (by rw [h]; exact Bool.false_ne_true)

def pollRecords (w : Window) (signals : Signals) : List Record :=
  if gone signals || !w.stale || signals.takesPicture then []
  else [⟨.error, "window update failed: Failed to Update"⟩]

end Window

end Challenger1P
