import Challenger1P.Frontend.Window
import Challenger1P.Proofs.Screen.Painting
import Challenger1P.Proofs.Since

/-!
# What a window hands over

A window is told of screens and polled in any order, and at any poll the window system may be gone or
refuse a picture. From a log of what was handed over, one can tell what the next poll does: whether a
picture is due (`RedrawDue`), and which one it is (`Shows`).

* `exists_current_afterCalls?`: the window knows both.
* `Shows.getElem?_index`: the picture dot by dot.
-/

namespace Challenger1P

/-- The shapes of a character ROM, and boxes where there is none. -/
def Glyphs.ofRom : Option (Vector UInt8 characterRomSize) → Glyphs
  | none => .boxes
  | some contents => .rom contents.toArray

theorem Glyphs.has_ofRom (rom : Option (Vector UInt8 characterRomSize)) (code : UInt8) :
    (ofRom rom).has code = true := by
  cases rom with
  | none => rfl
  | some contents =>
    have hsize : contents.toArray.size = 2048 := contents.size_toArray
    have hcode := code.toNat_lt
    exact decide_eq_true (by omega)

/-- A line of the shape of a code: of the ROM's, or of a box for what is not blank. -/
def Glyphs.line (rom : Option (Vector UInt8 characterRomSize)) (code : UInt8) (y : Fin 8) : UInt8 :=
  match rom with
  | some contents =>
    have hcode : code.toNat < 256 := code.toNat_lt
    have hsize : characterRomSize = 2048 := rfl
    contents.get ⟨8 * code.toNat + y.val, by omega⟩
  | none => if shownChar code = ' ' then 0x00 else if y.val = 0 ∨ y.val = 7 then 0xFF else 0x81

theorem Glyphs.row?_ofRom (rom : Option (Vector UInt8 characterRomSize)) (code : UInt8)
    (y : Fin 8) : (ofRom rom).row? code y = some (line rom code y) := by
  cases rom with
  | none => rfl
  | some contents =>
    have hcode : code.toNat < 256 := code.toNat_lt
    have hlt : 8 * code.toNat + y.val < contents.toArray.size := by
      rw [contents.size_toArray, characterRomSize]
      omega
    exact Array.getElem?_eq_getElem hlt

namespace Window

/-- A call of a window. -/
inductive Call where
  | display (screen : Screen)
  | poll (signals : Signals) (keyboard : Keyboard)

/-- The screen that a window is told of in a call. -/
def Call.screen? : Call → Option Screen
  | .display screen => some screen
  | .poll _ _ => none

/-- A call, and what the window system was handed in it. -/
structure Entry where
  call : Call
  update : Option Update

/-- One more call of a window, and its entry in the log. -/
def call? : Window × List Entry → Call → Option (Window × List Entry)
  | (w, log), .display screen =>
    (w.display? screen).map fun w => (w, log ++ [{ call := .display screen, update := none }])
  | (w, log), .poll signals keyboard =>
    let polled := w.poll signals keyboard
    some (polled.window, log ++ [{ call := .poll signals keyboard, update := polled.update }])

/-- A new window after these calls, and the log of them. -/
def afterCalls? (glyphs : Glyphs) (calls : List Call) : Option (Window × List Entry) :=
  calls.foldlM call? ({ glyphs }, [])

theorem afterCalls?_append_singleton (glyphs : Glyphs) (calls : List Call) (call : Call) :
    afterCalls? glyphs (calls ++ [call]) =
      (afterCalls? glyphs calls).bind fun state => call? state call :=
  foldlM_append_singleton call? ({ glyphs }, []) calls call

/-! ## What is due -/

/-- The window was told of a screen. -/
def Entry.Displays (e : Entry) : Prop := ∃ screen, e.call = .display screen

/-- A picture was handed over, whether it was taken or not. -/
def Entry.HandsPicture (e : Entry) : Prop := ∃ pixels, e.update = some (.picture pixels)

/-- No picture was handed over yet, or none since the window was told of a screen. -/
def RedrawDue (log : List Entry) : Prop :=
  (∀ e ∈ log, ¬ e.HandsPicture) ∨ Since Entry.Displays (fun e => ¬ e.HandsPicture) log

theorem redrawDue_append_singleton {log : List Entry} {e : Entry} :
    RedrawDue (log ++ [e]) ↔ e.Displays ∨ ¬ e.HandsPicture ∧ RedrawDue log := by
  rw [RedrawDue, List.forall_mem_append, List.forall_mem_singleton, since_append_singleton,
    or_left_comm, and_comm, ← and_or_left, RedrawDue]

theorem redrawDue_append_display {log : List Entry} {screen : Screen} {update : Option Update} :
    RedrawDue (log ++ [{ call := .display screen, update }]) :=
  redrawDue_append_singleton.2 (Or.inl ⟨screen, rfl⟩)

theorem redrawDue_append_poll {log : List Entry} {signals : Signals} {keyboard : Keyboard}
    {update : Option Update} :
    RedrawDue (log ++ [{ call := .poll signals keyboard, update }]) ↔
      (∀ pixels, update ≠ some (.picture pixels)) ∧ RedrawDue log := by
  have hpoll : ¬ Entry.Displays { call := .poll signals keyboard, update } := by
    rintro ⟨screen, hcall⟩
    cases hcall
  rw [redrawDue_append_singleton, or_iff_right hpoll, Entry.HandsPicture, not_exists]

/-- The pixels are a picture of the last screen that the window was told of, and nothing else; with
no such screen all of them are background. -/
def Shows (glyphs : Glyphs) (calls : List Call) (pixels : Array UInt32) : Prop :=
  match (calls.filterMap Call.screen?).getLast? with
  | none => pixels = Picture.blank
  | some screen => screen.draw? glyphs Picture.blank = some pixels

theorem Shows.size_eq {glyphs : Glyphs} {calls : List Call} {pixels : Array UInt32}
    (h : Shows glyphs calls pixels) : pixels.size = Picture.size := by
  have hblank : Picture.blank.size = Picture.size := Array.size_replicate
  unfold Shows at h
  split at h
  · rw [h, hblank]
  · rw [(Screen.painted_of_draw? h).size_eq, hblank]

/-- Dot by dot, what the picture of the last screen has. -/
theorem Shows.getElem?_index {rom : Option (Vector UInt8 characterRomSize)} {calls : List Call}
    {pixels : Array UInt32} (h : Shows (.ofRom rom) calls pixels) (d : Dot) :
    pixels[d.index]? = some ((calls.filterMap Call.screen?).getLast?.elim Picture.background
      fun screen => Picture.shade (Glyphs.line rom (screen.cell d.row d.column) d.y) d.x) := by
  unfold Shows at h
  cases hlast : (calls.filterMap Call.screen?).getLast? with
  | none =>
    rw [hlast] at h
    rw [h, Picture.blank, Array.getElem?_replicate, if_pos d.index_lt]
    rfl
  | some screen =>
    rw [hlast] at h
    have hcovered := (Screen.draw?_eq_some_iff.1 h).1.2
    obtain ⟨bits, hbits, hdot⟩ := (Screen.painted_of_draw? h).exists_shade hcovered d
    rw [Glyphs.row?_ofRom, Option.some_inj] at hbits
    rw [hdot, ← hbits]
    rfl

theorem shows_append_display {glyphs : Glyphs} {calls : List Call} {screen : Screen}
    {pixels : Array UInt32} :
    Shows glyphs (calls ++ [.display screen]) pixels ↔
      screen.draw? glyphs Picture.blank = some pixels := by
  have hlast : ((calls ++ [Call.display screen]).filterMap Call.screen?).getLast? = some screen := by
    rw [List.filterMap_append]
    exact List.getLast?_concat
  rw [Shows, hlast]

theorem shows_append_poll {glyphs : Glyphs} {calls : List Call} {signals : Signals}
    {keyboard : Keyboard} {pixels : Array UInt32} :
    Shows glyphs (calls ++ [.poll signals keyboard]) pixels ↔ Shows glyphs calls pixels := by
  have hlast : ((calls ++ [Call.poll signals keyboard]).filterMap Call.screen?).getLast? =
      (calls.filterMap Call.screen?).getLast? := by
    rw [List.filterMap_append]
    exact congrArg List.getLast? (List.append_nil _)
  rw [Shows, hlast, Shows]

/-- What a window knows after these calls with this log. -/
structure Current (glyphs : Glyphs) (calls : List Call) (log : List Entry) (w : Window) : Prop where
  glyphs_eq : w.glyphs = glyphs
  calls_eq : log.map Entry.call = calls
  shows : Shows glyphs calls w.picture
  stale_iff : w.stale = true ↔ RedrawDue log

theorem current_new (glyphs : Glyphs) : Current glyphs [] [] { glyphs } where
  glyphs_eq := rfl
  calls_eq := rfl
  shows := rfl
  stale_iff := ⟨fun _ => Or.inl (List.forall_mem_nil _), fun _ => rfl⟩

namespace Current

variable {glyphs : Glyphs} {calls : List Call} {log : List Entry} {w : Window}

theorem exists_display (h : Current glyphs calls log w) (hglyphs : ∀ code, glyphs.has code = true)
    (screen : Screen) :
    ∃ w', w.display? screen = some w' ∧
      Current glyphs (calls ++ [.display screen])
        (log ++ [{ call := .display screen, update := none }]) w' := by
  have hblank : Picture.blank.size = Picture.size := Array.size_replicate
  have hdraws : (screen.draw? glyphs Picture.blank).isSome = true :=
    Screen.isSome_draw?_iff.2
      ⟨Nat.le_of_eq hblank.symm, Screen.covered_iff.2 fun code _ => hglyphs code⟩
  obtain ⟨drawn, hdraw⟩ := Option.isSome_iff_exists.1 hdraws
  have hdraw' : screen.draw? w.glyphs w.picture = some drawn := by
    rw [h.glyphs_eq, Screen.draw?_congr h.shows.size_eq hblank, hdraw]
  refine ⟨{ w with picture := drawn, stale := true }, display?_of_draw? hdraw', ?_⟩
  exact
    { glyphs_eq := h.glyphs_eq
      calls_eq := by rw [List.map_append, h.calls_eq]; rfl
      shows := shows_append_display.2 hdraw
      stale_iff := ⟨fun _ => redrawDue_append_display, fun _ => rfl⟩ }

theorem poll (h : Current glyphs calls log w) (signals : Signals) (keyboard : Keyboard) :
    Current glyphs (calls ++ [.poll signals keyboard])
      (log ++ [{ call := .poll signals keyboard, update := (w.poll signals keyboard).update }])
      (w.poll signals keyboard).window := by
  have hcalls : ∀ update,
      List.map Entry.call (log ++ [{ call := .poll signals keyboard, update }]) =
        calls ++ [.poll signals keyboard] := by
    intro update
    rw [List.map_append, h.calls_eq]
    rfl
  cases hgone : gone signals with
  | true =>
    rw [poll_of_gone hgone]
    exact
      { glyphs_eq := h.glyphs_eq
        calls_eq := hcalls none
        shows := shows_append_poll.2 h.shows
        stale_iff := by rw [h.stale_iff, redrawDue_append_poll, and_iff_right fun _ => nofun] }
  | false =>
    rw [poll_of_present hgone]
    refine
      { glyphs_eq := h.glyphs_eq
        calls_eq := hcalls _
        shows := shows_append_poll.2 h.shows
        stale_iff := ⟨nofun, fun hredraw => ?_⟩ }
    -- If the picture was stale, this poll has just handed it over.
    obtain ⟨hkept, hdue⟩ := redrawDue_append_poll.1 hredraw
    rw [if_pos (h.stale_iff.2 hdue)] at hkept
    exact absurd rfl (hkept w.picture)

end Current

theorem exists_current_afterCalls? {glyphs : Glyphs} (hglyphs : ∀ code, glyphs.has code = true)
    (calls : List Call) :
    ∃ w log, afterCalls? glyphs calls = some (w, log) ∧ Current glyphs calls log w := by
  induction calls using List.reverseRecOn with
  | nil => exact ⟨_, _, rfl, current_new glyphs⟩
  | append_singleton calls call ih =>
    obtain ⟨w, log, hbefore, hcurrent⟩ := ih
    rw [afterCalls?_append_singleton, hbefore, Option.bind_some]
    cases call with
    | display screen =>
      obtain ⟨w', hdisplay, hcurrent'⟩ := hcurrent.exists_display hglyphs screen
      exact ⟨w', _, by rw [call?, hdisplay]; rfl, hcurrent'⟩
    | poll signals keyboard => exact ⟨_, _, rfl, hcurrent.poll signals keyboard⟩

end Window

/-- Whatever a new window is told of and however it is polled, every call has a result. At a poll
that finds the window gone, nothing is handed over, no key is passed on, and the window stays as it
is. At every other poll one update is made. It is the picture of the last screen if none was handed
over since the window was told of that screen, or none at all; else it is that nothing is new. Each
dot of the picture has the colour of its bit in the shape of its character, and before the first
screen all are background. The window is there after the update unless a picture was refused. -/
theorem the_window_shows_the_last_screen (rom : Option (Vector UInt8 characterRomSize))
    (calls : List Window.Call) :
    ∃ w log, Window.afterCalls? (.ofRom rom) calls = some (w, log) ∧
      log.map Window.Entry.call = calls ∧
      ∀ signals keyboard,
        let polled := w.poll signals keyboard
        (signals.isOpen = false ∨ .f12 ∈ signals.down →
          polled.alive = false ∧ polled.update = none ∧ polled.keyboard = keyboard ∧
            polled.window = w) ∧
        (signals.isOpen = true → .f12 ∉ signals.down →
          (Window.RedrawDue log →
            polled.alive = signals.takesPicture ∧
              ∃ pixels, polled.update = some (.picture pixels) ∧
                Window.Shows (.ofRom rom) calls pixels ∧ pixels.size = Picture.size ∧
                ∀ d : Dot, pixels[d.index]? =
                  some ((calls.filterMap Window.Call.screen?).getLast?.elim Picture.background
                    fun screen =>
                      Picture.shade (Glyphs.line rom (screen.cell d.row d.column) d.y) d.x)) ∧
          (¬ Window.RedrawDue log → polled.alive = true ∧ polled.update = some .unchanged)) := by
  obtain ⟨w, log, hafter, hcurrent⟩ :=
    Window.exists_current_afterCalls? (Glyphs.has_ofRom rom) calls
  refine ⟨w, log, hafter, hcurrent.calls_eq, fun signals keyboard => ⟨fun hgone => ?_, ?_⟩⟩
  · rw [Window.poll_of_gone (Window.gone_iff.2 hgone)]
    exact ⟨rfl, rfl, rfl, rfl⟩
  · intro hopen hkey
    rw [Window.poll_of_present (Window.gone_eq_false_iff.2 ⟨hopen, hkey⟩), ← hcurrent.stale_iff]
    constructor
    · intro hstale
      simp only [hstale, Bool.not_true, Bool.false_or, if_true, true_and]
      exact ⟨w.picture, rfl, hcurrent.shows, hcurrent.shows.size_eq, hcurrent.shows.getElem?_index⟩
    · intro hfresh
      simp [hfresh]

/-- The window is told of a screen, and a poll finds it gone; then the window system refuses the
picture. And beside it a window that has handed over its first picture. -/
theorem the_window_shows_the_last_screen_when_refused :
    let s : Screen := Vector.replicate 2048 0x41
    let key : Signals := { down := [.f12] }
    let refusal : Signals := { takesPicture := false }
    (∃ w log, Window.afterCalls? .boxes [.display s] = some (w, log) ∧ Window.RedrawDue log ∧
      (w.poll key {}).update = none ∧ (w.poll key {}).window = w ∧
      (w.poll refusal {}).alive = false ∧
      ∃ pixels, (w.poll refusal {}).update = some (.picture pixels) ∧
        s.draw? .boxes Picture.blank = some pixels ∧ pixels[512]? = some Picture.foreground) ∧
    ∃ w log, Window.afterCalls? .boxes [.poll {} {}] = some (w, log) ∧ ¬ Window.RedrawDue log ∧
      (w.poll {} {}).update = some .unchanged := by
  intro s key refusal
  constructor
  · obtain ⟨w, log, hafter, hcalls, hpoll⟩ := the_window_shows_the_last_screen none [.display s]
    obtain ⟨e, rfl, hcall⟩ := List.map_eq_singleton_iff.1 hcalls
    have hdue : Window.RedrawDue [e] :=
      (@Window.redrawDue_append_singleton [] e).2 (Or.inl ⟨s, hcall⟩)
    obtain ⟨-, hnone, -, hkept⟩ := (hpoll key {}).1 (Or.inr (by decide))
    obtain ⟨halive, pixels, hupdate, hshows, -, hdots⟩ :=
      ((hpoll refusal {}).2 rfl (by decide)).1 hdue
    -- The left edge of a box.
    have hedge : pixels[512]? = some Picture.foreground :=
      (hdots ⟨0, 0, 1, 0⟩).trans (by decide +kernel)
    exact ⟨w, [e], hafter, hdue, hnone, hkept, halive, pixels, hupdate, hshows, hedge⟩
  · obtain ⟨w, log, hafter, -, hpoll⟩ := the_window_shows_the_last_screen none [.poll {} {}]
    have hlog : log = [{ call := .poll {} {}, update := some (.picture Picture.blank) }] :=
      congrArg Prod.snd (Option.some.inj hafter.symm)
    have hfresh : ¬ Window.RedrawDue log := by
      rw [hlog]
      intro hdue
      rcases (@Window.redrawDue_append_singleton [] _).1 hdue with ⟨screen, hcall⟩ | ⟨hkept, -⟩
      · cases hcall
      · exact hkept ⟨Picture.blank, rfl⟩
    exact ⟨w, log, hafter, hfresh, (((hpoll {} {}).2 rfl (by decide)).2 hfresh).2⟩

end Challenger1P
