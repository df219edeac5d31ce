import Mathlib.Data.List.Nodup
import Challenger1P.Frontend.Window
import Challenger1P.Proofs.Since

/-!
# What a window system reports of keys

A poll of the window reports which keys came up and which went down since the one before. What is
expected of a window system is that it misses none of that (`Orderly`): each key goes down and comes
up by turns. From the polls so far it is known then which keys are down (`IsDown`), and what each
stood for when it went down (`standsFor`).

* `Orderly.isDown_append`, `Orderly.standsFor_append`: what one more poll makes of both.
* `Orderly.isDown_iff_since`: a key is down if it went down and has not come up since.
-/

namespace Challenger1P

/-! ## Lists that alternate -/

/-- True and false by turns, true first. -/
def Alternating (list : List Bool) : Prop :=
  ∀ (i : Nat) (h : i < list.length), list[i] = decide (i % 2 = 0)

instance (list : List Bool) : Decidable (Alternating list) :=
  inferInstanceAs (Decidable (∀ (i : Nat) (h : i < list.length), list[i] = decide (i % 2 = 0)))

theorem alternating_append_singleton {list : List Bool} {b : Bool} :
    Alternating (list ++ [b]) ↔ Alternating list ∧ b = decide (list.length % 2 = 0) := by
  constructor
  · intro h
    refine ⟨fun i hi => ?_, ?_⟩
    · rw [← h i (by rw [List.length_append]; omega), List.getElem_append_left hi]
    · have hlast := h list.length (by simp)
      rwa [List.getElem_concat_length] at hlast
      rfl
  · rintro ⟨h, rfl⟩ i hi
    rcases Nat.lt_or_ge i list.length with hlt | hge
    · rw [List.getElem_append_left hlt, h i hlt]
    · have : i = list.length := by simp at hi; omega
      subst this
      exact List.getElem_concat_length rfl _

/-- What comes next in an alternating list is the other of the two, true at first. -/
theorem Alternating.next_iff {list : List Bool} {b : Bool} (h : Alternating (list ++ [b])) :
    b = true ↔ list.getLast? ≠ some true := by
  obtain ⟨hlist, rfl⟩ := alternating_append_singleton.1 h
  rcases List.eq_nil_or_concat list with rfl | ⟨init, last, rfl⟩
  · simp
  · rw [List.concat_eq_append] at hlist ⊢
    obtain ⟨-, rfl⟩ := alternating_append_singleton.1 hlist
    rw [List.getLast?_concat, List.length_append, List.length_singleton]
    simp only [decide_eq_true_eq, ne_eq, Option.some.injEq]
    omega

/-! ## One poll -/

namespace Signals

/-- A shift key is down. -/
def shifted (s : Signals) : Bool := s.down.contains .leftShift || s.down.contains .rightShift

/-- What a poll reports of a key: that it came up (false), that it went down (true). -/
def motions (s : Signals) (key : PhysicalKey) : List Bool :=
  List.replicate (s.released.count key) false ++ List.replicate (s.pressed.count key) true

/-- A poll of a window that is there, and that reports no more than one thing of a key. -/
structure Consistent (s : Signals) : Prop where
  present : Window.gone s = false
  pressed_nodup : s.pressed.Nodup
  released_nodup : s.released.Nodup
  not_both : ∀ key ∈ s.pressed, key ∉ s.released

instance (s : Signals) : Decidable s.Consistent :=
  decidable_of_iff
    (Window.gone s = false ∧ s.pressed.Nodup ∧ s.released.Nodup ∧
      ∀ key ∈ s.pressed, key ∉ s.released)
    ⟨fun ⟨hpresent, hpressed, hreleased, hboth⟩ => ⟨hpresent, hpressed, hreleased, hboth⟩,
      fun ⟨hpresent, hpressed, hreleased, hboth⟩ => ⟨hpresent, hpressed, hreleased, hboth⟩⟩

theorem Consistent.motions_eq {s : Signals} (h : s.Consistent) (key : PhysicalKey) :
    s.motions key =
      if key ∈ s.pressed then [true] else if key ∈ s.released then [false] else [] := by
  unfold motions
  split
  · rename_i hpressed
    have hreleased : key ∉ s.released := h.not_both key hpressed
    rw [List.count_eq_one_of_mem h.pressed_nodup hpressed, List.count_eq_zero_of_not_mem hreleased]
    rfl
  · rename_i hpressed
    rw [List.count_eq_zero_of_not_mem hpressed]
    split
    · rename_i hreleased
      rw [List.count_eq_one_of_mem h.released_nodup hreleased]
      rfl
    · rename_i hreleased
      rw [List.count_eq_zero_of_not_mem hreleased]
      rfl

end Signals

/-! ## The polls of a window -/

/-- What polls report of a key, one after the other. -/
def motions (polls : List Signals) (key : PhysicalKey) : List Bool :=
  polls.flatMap (·.motions key)

/-- The polls of a window that is there all the time, and that misses nothing: each key goes down
and comes up by turns. -/
structure Orderly (polls : List Signals) : Prop where
  consistent : ∀ s ∈ polls, s.Consistent
  alternating : ∀ key, Alternating (motions polls key)

/-- The key is down: the last that was reported of it is that it went down. -/
def IsDown (polls : List Signals) (key : PhysicalKey) : Prop :=
  (motions polls key).getLast? = some true

instance (polls : List Signals) : DecidablePred (IsDown polls) := fun key =>
  inferInstanceAs (Decidable ((motions polls key).getLast? = some true))

/-- What a key that is down stood for when it went down, if that was anything. -/
def standsFor (polls : List Signals) (key : PhysicalKey) : Option Key :=
  if IsDown polls key then
    (polls.filter fun s => key ∈ s.pressed).getLast?.bind fun s => key.key? s.shifted
  else none

theorem motions_append_singleton (polls : List Signals) (s : Signals) (key : PhysicalKey) :
    motions (polls ++ [s]) key = motions polls key ++ s.motions key := by
  simp [motions]

theorem isDown_of_standsFor {polls : List Signals} {key : PhysicalKey} {stood : Key}
    (h : standsFor polls key = some stood) : IsDown polls key := by
  unfold standsFor at h
  split at h
  · assumption
  · cases h

/-- The keys that the polls report something of. -/
def mentioned (polls : List Signals) : List PhysicalKey :=
  polls.flatMap fun s => s.released ++ s.pressed

theorem motions_of_not_mem {polls : List Signals} {key : PhysicalKey} (h : key ∉ mentioned polls) :
    motions polls key = [] := by
  refine List.flatMap_eq_nil_iff.2 fun s hs => ?_
  have hnone : key ∉ s.released ++ s.pressed := fun hkey => h (List.mem_flatMap.2 ⟨s, hs, hkey⟩)
  rw [List.mem_append, not_or] at hnone
  rw [Signals.motions, List.count_eq_zero_of_not_mem hnone.1, List.count_eq_zero_of_not_mem hnone.2]
  rfl

theorem mem_mentioned_of_isDown {polls : List Signals} {key : PhysicalKey} (h : IsDown polls key) :
    key ∈ mentioned polls := by
  by_contra hnone
  rw [IsDown, motions_of_not_mem hnone] at h
  cases h

/-- What is to be seen of polls is to be seen of the keys that they mention. -/
theorem Orderly.of_mentioned {polls : List Signals} (hconsistent : ∀ s ∈ polls, s.Consistent)
    (halternating : ∀ key ∈ mentioned polls, Alternating (motions polls key)) : Orderly polls where
  consistent := hconsistent
  alternating key := by
    by_cases hkey : key ∈ mentioned polls
    · exact halternating key hkey
    · rw [motions_of_not_mem hkey]
      exact fun i hi => absurd hi (Nat.not_lt_zero i)

namespace Orderly

variable {polls : List Signals} {s : Signals}

theorem consistent_last (h : Orderly (polls ++ [s])) : s.Consistent := h.consistent s (by simp)

theorem init (h : Orderly (polls ++ [s])) : Orderly polls where
  consistent t ht := h.consistent t (List.mem_append_left [s] ht)
  alternating key := by
    have halternating := h.alternating key
    rw [motions_append_singleton, h.consistent_last.motions_eq] at halternating
    split at halternating
    · exact (alternating_append_singleton.1 halternating).1
    · split at halternating
      · exact (alternating_append_singleton.1 halternating).1
      · rwa [List.append_nil] at halternating

/-- Only a key that is up goes down. -/
theorem not_isDown_of_pressed (h : Orderly (polls ++ [s])) {key : PhysicalKey}
    (hkey : key ∈ s.pressed) : ¬ IsDown polls key := by
  have halternating := h.alternating key
  rw [motions_append_singleton, h.consistent_last.motions_eq, if_pos hkey] at halternating
  exact halternating.next_iff.1 rfl

theorem standsFor_of_pressed (h : Orderly (polls ++ [s])) {key : PhysicalKey}
    (hkey : key ∈ s.pressed) : standsFor polls key = none :=
  if_neg (h.not_isDown_of_pressed hkey)

/-- Only a key that is down comes up. -/
theorem isDown_of_released (h : Orderly (polls ++ [s])) {key : PhysicalKey}
    (hkey : key ∈ s.released) : IsDown polls key := by
  have hpressed : key ∉ s.pressed := fun hpressed => h.consistent_last.not_both key hpressed hkey
  have halternating := h.alternating key
  rw [motions_append_singleton, h.consistent_last.motions_eq, if_neg hpressed, if_pos hkey]
    at halternating
  exact not_not.1 fun hup => Bool.false_ne_true (halternating.next_iff.2 hup)

theorem isDown_append (h : Orderly (polls ++ [s])) (key : PhysicalKey) :
    IsDown (polls ++ [s]) key ↔ key ∈ s.pressed ∨ key ∉ s.released ∧ IsDown polls key := by
  rw [IsDown, motions_append_singleton, h.consistent_last.motions_eq, List.getLast?_append]
  split
  · simp [*]
  · split <;> simp [*, IsDown]

theorem standsFor_append (h : Orderly (polls ++ [s])) (key : PhysicalKey) :
    standsFor (polls ++ [s]) key =
      if key ∈ s.pressed then key.key? s.shifted
      else if key ∈ s.released then none
      else standsFor polls key := by
  unfold standsFor
  simp only [h.isDown_append, List.filter_append, List.getLast?_append]
  by_cases hpressed : key ∈ s.pressed
  · simp [hpressed]
  · by_cases hreleased : key ∈ s.released <;> simp [hpressed, hreleased]

theorem isDown_iff_since (h : Orderly polls) (key : PhysicalKey) :
    IsDown polls key ↔ Since (key ∈ ·.pressed) (key ∉ ·.released) polls := by
  induction polls using List.reverseRecOn with
  | nil => exact iff_of_false nofun not_since_nil
  | append_singleton polls s ih => rw [h.isDown_append, since_append_singleton, ih h.init]

/-- What stands for the same whatever the shift keys do stands for it as long as it is down. -/
theorem standsFor_eq_some_iff (h : Orderly polls) {key : PhysicalKey} {stood : Key} {p : Prop}
    (hkey : ∀ shifted, key.key? shifted = some stood ↔ p) :
    standsFor polls key = some stood ↔ p ∧ IsDown polls key := by
  induction polls using List.reverseRecOn with
  | nil => exact iff_of_false nofun fun hdown => nomatch hdown.2
  | append_singleton polls s ih =>
    rw [h.standsFor_append, h.isDown_append]
    split
    · simp [*]
    · split
      · simp [*]
      · rw [ih h.init]
        simp [*]

end Orderly

end Challenger1P
