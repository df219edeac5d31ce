import Mathlib.Data.List.Perm.Basic
import Challenger1P.Proofs.Frontend.Motions
import Challenger1P.Proofs.Keyboard.Events

/-!
# What the window passes on

The window keeps a list of the keys that it has passed on as pressed, each with the key of the
machine that it stood for. The list is a set in effect: what matters is what it has for each key
(`Holds`), which is how releases are passed on for the key of the press however the list is ordered.

* `Window.release_cases`: a release takes one entry out, if there is one, and passes that on.
* `Holds.release`, `Holds.press`: what the list has after one key is passed on.
* `Holds.forward`: what it has after a poll, and what the keyboard is told at it.
-/

namespace Challenger1P

/-! ## Removing from a list -/

theorem swapErase_concat {α : Type} (init : List α) (last : α) (i : Nat) :
    swapErase (init ++ [last]) i = ((init ++ [last]).set i last).dropLast := by
  rw [swapErase, List.getLast?_concat]

theorem perm_cons_swapErase {α : Type} {l : List α} {i : Nat} (h : i < l.length) :
    (l[i] :: swapErase l i).Perm l := by
  rcases List.eq_nil_or_concat l with rfl | ⟨init, last, rfl⟩
  · exact absurd h (Nat.not_lt_zero i)
  · simp only [List.concat_eq_append] at h ⊢
    rw [swapErase_concat]
    rcases Nat.lt_or_ge i init.length with hlt | hge
    · -- the last element takes the place of the one that goes
      rw [List.getElem_append_left hlt, List.set_append_left _ _ hlt, List.dropLast_concat]
      calc (init[i] :: init.set i last)
        _ |>.Perm (init[i] :: last :: init.eraseIdx i) :=
          (List.set_perm_cons_eraseIdx hlt last).cons _
        _ |>.Perm (last :: init[i] :: init.eraseIdx i) := List.Perm.swap ..
        _ |>.Perm (last :: init) := (List.getElem_cons_eraseIdx_perm hlt).cons _
        _ |>.Perm (init ++ [last]) := (List.perm_append_singleton last init).symm
    · obtain rfl : i = init.length := by rw [List.length_append, List.length_singleton] at h; omega
      rw [List.getElem_concat_length rfl, List.set_append_right _ _ (Nat.le_refl _), Nat.sub_self,
        List.set_cons_zero, List.dropLast_concat]
      exact (List.perm_append_singleton last init).symm

/-! ## The list of held keys -/

/-- The list has one entry for each key that stands for something, with that, and no other. -/
def Holds (held : List (PhysicalKey × Key)) (stands : PhysicalKey → Option Key) : Prop :=
  ∀ key, held.filter (·.1 = key) = ((stands key).map fun stood => (key, stood)).toList

namespace Holds

variable {held : List (PhysicalKey × Key)} {stands : PhysicalKey → Option Key}

theorem mem_iff (h : Holds held stands) {key : PhysicalKey} {stood : Key} :
    (key, stood) ∈ held ↔ stands key = some stood := by
  have hmem : (key, stood) ∈ held ↔ (key, stood) ∈ held.filter (·.1 = key) := by simp
  rw [hmem, h key]
  cases stands key <;> simp [eq_comm]

end Holds

namespace Window

/-- A release that is passed on takes one entry for the key out of the list, whichever that leaves
in which place. -/
theorem release_cases (held : List (PhysicalKey × Key)) (keyboard : Keyboard) (key : PhysicalKey) :
    (∀ entry ∈ held, entry.1 ≠ key) ∧ release held keyboard key = (held, keyboard) ∨
      ∃ stood rest, ((key, stood) :: rest).Perm held ∧
        release held keyboard key = (rest, keyboard.release stood) := by
  unfold release
  cases hfind : held.findIdx? (·.1 = key) with
  | none =>
    refine Or.inl ⟨fun entry hentry => ?_, rfl⟩
    simpa using List.findIdx?_eq_none_iff.1 hfind entry hentry
  | some i =>
    obtain ⟨hi, hkey, -⟩ := List.findIdx?_eq_some_iff_getElem.1 hfind
    refine Or.inr ⟨held[i].2, swapErase held i, ?_, ?_⟩
    · rw [← of_decide_eq_true hkey]
      exact perm_cons_swapErase hi
    · simp only [List.getElem?_eq_getElem hi]

end Window

namespace Holds

variable {held : List (PhysicalKey × Key)} {stands : PhysicalKey → Option Key}

/-- Two lists with the same entries hold the same. -/
theorem of_perm (h : Holds held stands) {other : List (PhysicalKey × Key)}
    (hperm : other.Perm held) : Holds other stands := by
  intro key
  have hfilter := hperm.filter (·.1 = key)
  rw [h key] at hfilter
  cases hkey : stands key <;> rw [hkey] at hfilter
  · exact hfilter.eq_nil
  · exact List.perm_singleton.1 hfilter

theorem release (h : Holds held stands) (keyboard : Keyboard) (key : PhysicalKey) :
    Holds (Window.release held keyboard key).1 (Function.update stands key none) ∧
      (Window.release held keyboard key).2 =
        (stands key).toList.foldl Keyboard.release keyboard := by
  rcases Window.release_cases held keyboard key with ⟨hnone, heq⟩ | ⟨stood, rest, hperm, heq⟩
  · have hkey : stands key = none :=
      Option.eq_none_iff_forall_not_mem.2 fun stood hstood => hnone _ (h.mem_iff.2 hstood) rfl
    rw [heq, hkey, ← hkey, Function.update_eq_self, hkey]
    exact ⟨h, rfl⟩
  · have hall := h.of_perm hperm
    have hstands : stands key = some stood := hall.mem_iff.1 List.mem_cons_self
    rw [heq, hstands]
    refine ⟨fun other => ?_, rfl⟩
    have hother := hall other
    rw [List.filter_cons] at hother
    by_cases hkey : other = key
    · subst hkey
      simpa [hstands] using hother
    · simpa [hkey, Ne.symm hkey, Function.update_of_ne hkey] using hother

theorem press (h : Holds held stands) (keyboard : Keyboard) {key : PhysicalKey}
    (hkey : stands key = none) (shifted : Bool) :
    Holds (Window.press shifted held keyboard key).1
        (Function.update stands key (key.key? shifted)) ∧
      (Window.press shifted held keyboard key).2 =
        (key.key? shifted).toList.foldl Keyboard.press keyboard := by
  rw [Window.press]
  cases key.key? shifted with
  | none =>
    have hsame : Function.update stands key none = stands := by rw [← hkey, Function.update_eq_self]
    rw [hsame]
    exact ⟨h, rfl⟩
  | some stood =>
    refine ⟨fun other => ?_, rfl⟩
    rw [List.filter_append, h other]
    by_cases hother : other = key
    · subst hother
      simp [hkey]
    · simp [hother, Ne.symm hother]

/-- Keys that are passed on one after the other, none twice, are each passed on as if it were the
only one. -/
theorem foldl
    (step : List (PhysicalKey × Key) → Keyboard → PhysicalKey →
      List (PhysicalKey × Key) × Keyboard)
    (act : Keyboard → Key → Keyboard) (next : PhysicalKey → Option Key)
    (told : Option Key → PhysicalKey → Option Key) (ready : Option Key → Prop)
    (hstep : ∀ {held stands}, Holds held stands → ∀ keyboard key, ready (stands key) →
      Holds (step held keyboard key).1 (Function.update stands key (next key)) ∧
        (step held keyboard key).2 = (told (stands key) key).toList.foldl act keyboard)
    (h : Holds held stands) (keyboard : Keyboard) {keys : List PhysicalKey} (hnodup : keys.Nodup)
    (hready : ∀ key ∈ keys, ready (stands key)) :
    let after := keys.foldl (fun (held, keyboard) => step held keyboard) (held, keyboard)
    Holds after.1 (fun key => if key ∈ keys then next key else stands key) ∧
      after.2 = (keys.filterMap fun key => told (stands key) key).foldl act keyboard := by
  induction keys generalizing held stands keyboard with
  | nil => exact ⟨by simpa using h, rfl⟩
  | cons key rest ih =>
    obtain ⟨hkey, hrest⟩ := List.nodup_cons.1 hnodup
    obtain ⟨hheld, hkeyboard⟩ := hstep h keyboard key (hready key List.mem_cons_self)
    have hother : ∀ other ∈ rest, Function.update stands key (next key) other = stands other :=
      fun other hother => Function.update_of_ne (ne_of_mem_of_not_mem hother hkey) ..
    obtain ⟨hafter, hpassed⟩ := ih hheld (step held keyboard key).2 hrest fun other hmem => by
      rw [hother other hmem]
      exact hready other (List.mem_cons_of_mem key hmem)
    refine ⟨?_, ?_⟩
    · have hnext : (fun other => if other ∈ key :: rest then next other else stands other) =
          fun other => if other ∈ rest then next other
            else Function.update stands key (next key) other := by
        funext other
        by_cases heq : other = key
        · subst heq
          simp [hkey]
        · simp [heq]
      rw [hnext]
      exact hafter
    · have htold : (rest.filterMap fun other =>
            told (Function.update stands key (next key) other) other) =
          rest.filterMap fun other => told (stands other) other :=
        List.filterMap_congr fun other hmem => by rw [hother other hmem]
      refine hpassed.trans ?_
      rw [htold, hkeyboard, List.filterMap_cons]
      cases told (stands key) key <;> rfl

end Holds

namespace Signals

/-- The keys of the machine whose releases a poll passes on, if the keys that are down stand for
these. -/
def letGo (s : Signals) (stands : PhysicalKey → Option Key) : List Key :=
  s.released.filterMap stands

/-- The keys of the machine whose presses a poll passes on. -/
def typed (s : Signals) : List Key := s.pressed.filterMap fun key => key.key? s.shifted

end Signals

theorem Holds.forward {held : List (PhysicalKey × Key)} {stands : PhysicalKey → Option Key}
    (h : Holds held stands) {s : Signals} (hs : s.Consistent)
    (hup : ∀ key ∈ s.pressed, stands key = none) (keyboard : Keyboard) :
    Holds (Window.forward s held keyboard).1 (fun key =>
        if key ∈ s.pressed then key.key? s.shifted else if key ∈ s.released then none
        else stands key) ∧
      (Window.forward s held keyboard).2 =
        s.typed.foldl Keyboard.press ((s.letGo stands).foldl Keyboard.release keyboard) := by
  obtain ⟨hletGo, hreleases⟩ := h.foldl Window.release Keyboard.release (fun _ => none)
    (fun stood _ => stood) (fun _ => True) (fun h keyboard key _ => h.release keyboard key) keyboard
    hs.released_nodup fun _ _ => trivial
  obtain ⟨htyped, hpresses⟩ := hletGo.foldl (Window.press s.shifted) Keyboard.press
    (fun key => key.key? s.shifted) (fun _ key => key.key? s.shifted) (· = none)
    (fun h keyboard key hkey => h.press keyboard hkey s.shifted) _ hs.pressed_nodup
    fun key hkey => by rw [hup key hkey, ite_self]
  refine ⟨htyped, hpresses.trans ?_⟩
  rw [hreleases]
  rfl

end Challenger1P
