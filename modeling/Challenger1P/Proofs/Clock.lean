import Challenger1P.Settings

/-!
# The cycles of a tick

A tick of some milliseconds has room for as many cycles as its share of a second, rounded down
(`cyclesWithin`). That is the budget of the clock that the settings make, as long as it is a number
of 64 bits. Nothing keeps the settings from asking for more. Then the budget is what is left of the
number in its low 64 bits, and may be nothing at all; and there is none if the product that it is
taken from has no room in 128 bits.

* `clock_ofArguments`: the clock that the settings have.
* `budget_eq_none_iff`, `toNat_of_budget`: the two limits.
* `exists_exact_budget_iff`: the budget is exact just if it is a number of 64 bits.
-/

namespace Challenger1P

/-- The cycles that so many milliseconds have room for, at so many cycles a second. -/
def cyclesWithin (millis rate : Nat) : Nat := rate * millis / 1000

theorem cyclesWithin_mono {millis millis' rate rate' : Nat} (hmillis : millis ≤ millis')
    (hrate : rate ≤ rate') : cyclesWithin millis rate ≤ cyclesWithin millis' rate' :=
  Nat.div_le_div_right (Nat.mul_le_mul hrate hmillis)

/-! ## The clock of the settings -/

/-- The clock with ticks so many milliseconds long. -/
def Clock.ofMillis (rate millis : UInt64) : Clock :=
  { rateHz := rate, tickNanos := millis.toNat * millisecond }

theorem Settings.clock_ofArguments {a : Arguments} {settings : Settings}
    (h : Settings.ofArguments a = .ok settings) :
    settings.clock = .ofMillis a.clockHz a.tickMillis := by
  unfold Settings.ofArguments at h
  split at h
  · cases h
  split at h
  · cases h
  split at h
  · cases h
  cases h
  rfl

/-! ## The budget -/

namespace Clock

variable {rate millis : UInt64}

/-- Nanoseconds and the nanoseconds of a second, in place of milliseconds and their thousand. -/
theorem quotient_ofMillis (rate millis : UInt64) :
    rate.toNat * (ofMillis rate millis).tickNanos / second =
      cyclesWithin millis.toNat rate.toNat := by
  have hsecond : second = 1000 * millisecond := rfl
  show rate.toNat * (millis.toNat * millisecond) / second = rate.toNat * millis.toNat / 1000
  rw [hsecond, ← Nat.mul_assoc, Nat.mul_div_mul_right _ _ (by decide : 0 < millisecond)]

theorem budget_ofMillis (rate millis : UInt64) :
    (ofMillis rate millis).budget =
      if rate.toNat * millis.toNat * millisecond < wideSize then
        some (UInt64.ofNat (cyclesWithin millis.toNat rate.toNat))
      else none := by
  rw [← quotient_ofMillis, Nat.mul_assoc]
  rfl

theorem budget_eq_none_iff :
    (ofMillis rate millis).budget = none ↔
      wideSize ≤ rate.toNat * millis.toNat * millisecond := by
  rw [budget_ofMillis, ← Nat.not_lt, ite_eq_right_iff]
  exact ⟨fun h hroom => (nomatch h hroom), fun h hroom => absurd hroom h⟩

/-- The quotient loses what is above its low 64 bits. -/
theorem toNat_of_budget {budget : UInt64} (h : (ofMillis rate millis).budget = some budget) :
    budget.toNat = cyclesWithin millis.toNat rate.toNat % UInt64.size := by
  rw [budget_ofMillis] at h
  split at h
  · cases h
    exact UInt64.toNat_ofNat'
  · cases h

/-- What has room in 64 bits as a quotient has room in 128 bits as a product. -/
theorem product_lt_of_cyclesWithin_lt
    (h : cyclesWithin millis.toNat rate.toNat < UInt64.size) :
    rate.toNat * millis.toNat * millisecond < wideSize := by
  have hproduct : rate.toNat * millis.toNat < UInt64.size * 1000 :=
    (Nat.div_lt_iff_lt_mul (by decide)).1 h
  calc rate.toNat * millis.toNat * millisecond
      < UInt64.size * 1000 * millisecond := Nat.mul_lt_mul_of_pos_right hproduct (by decide)
    _ ≤ wideSize := by decide

theorem exists_exact_budget_of_lt (h : cyclesWithin millis.toNat rate.toNat < UInt64.size) :
    ∃ budget, (ofMillis rate millis).budget = some budget ∧
      budget.toNat = cyclesWithin millis.toNat rate.toNat := by
  refine ⟨UInt64.ofNat (cyclesWithin millis.toNat rate.toNat), ?_, UInt64.toNat_ofNat_of_lt h⟩
  rw [budget_ofMillis, if_pos (product_lt_of_cyclesWithin_lt h)]

theorem exists_exact_budget_iff :
    (∃ budget, (ofMillis rate millis).budget = some budget ∧
        budget.toNat = cyclesWithin millis.toNat rate.toNat) ↔
      cyclesWithin millis.toNat rate.toNat < UInt64.size := by
  refine ⟨?_, exists_exact_budget_of_lt⟩
  rintro ⟨budget, -, hexact⟩
  exact hexact ▸ budget.toNat_lt_size

end Clock

/-- The settings that arguments make have a clock whose budget is the cycles that a tick has room
for, if and only if their number has room in 64 bits; and up to there a faster clock or a longer tick
never makes a smaller budget. Above, the number loses what is beyond its low 64 bits, and there is
no budget if the product of rate and nanoseconds is beyond 128 bits. -/
theorem budget_is_exact_within_64_bits {a : Arguments} {settings : Settings}
    (h : Settings.ofArguments a = .ok settings) :
    let cycles := cyclesWithin a.tickMillis.toNat a.clockHz.toNat
    ((∃ budget, settings.clock.budget = some budget ∧ budget.toNat = cycles) ↔
      cycles < UInt64.size) ∧
    (settings.clock.budget = none ↔
      Clock.wideSize ≤ a.clockHz.toNat * a.tickMillis.toNat * millisecond) ∧
    (∀ budget, settings.clock.budget = some budget → budget.toNat = cycles % UInt64.size) ∧
    ∀ slower settings', Settings.ofArguments slower = .ok settings' →
      slower.clockHz ≤ a.clockHz → slower.tickMillis ≤ a.tickMillis → cycles < UInt64.size →
        ∃ budget budget', settings.clock.budget = some budget ∧
          settings'.clock.budget = some budget' ∧ budget' ≤ budget := by
  intro cycles
  rw [Settings.clock_ofArguments h]
  refine ⟨Clock.exists_exact_budget_iff, Clock.budget_eq_none_iff,
    fun budget => Clock.toNat_of_budget, ?_⟩
  intro slower settings' h' hrate htick hcycles
  rw [Settings.clock_ofArguments h']
  have hle : cyclesWithin slower.tickMillis.toNat slower.clockHz.toNat ≤ cycles :=
    cyclesWithin_mono (UInt64.le_iff_toNat_le.1 htick) (UInt64.le_iff_toNat_le.1 hrate)
  obtain ⟨budget, hbudget, hexact⟩ := Clock.exists_exact_budget_of_lt hcycles
  obtain ⟨budget', hbudget', hexact'⟩ :=
    Clock.exists_exact_budget_of_lt (Nat.lt_of_le_of_lt hle hcycles)
  refine ⟨budget, budget', hbudget, hbudget', UInt64.le_iff_toNat_le.2 ?_⟩
  rw [hexact, hexact']
  exact hle

/-- The fastest clock with a tick of a second, which has the largest budget, and beside it one that
is half as fast. -/
theorem budget_is_exact_within_64_bits_at_the_limit :
    let a : Arguments := { clockHz := 0xFFFFFFFFFFFFFFFF, tickMillis := 1000 }
    let slower : Arguments := { clockHz := 0x7FFFFFFFFFFFFFFF, tickMillis := 1000 }
    ∃ settings settings', Settings.ofArguments a = .ok settings ∧
      Settings.ofArguments slower = .ok settings' ∧
      settings.clock.budget = some 0xFFFFFFFFFFFFFFFF ∧
      ∃ budget', settings'.clock.budget = some budget' ∧ budget' ≤ 0xFFFFFFFFFFFFFFFF := by
  intro a slower
  have hcycles : cyclesWithin a.tickMillis.toNat a.clockHz.toNat < UInt64.size := by decide
  obtain ⟨-, -, hlow, hmono⟩ := budget_is_exact_within_64_bits (a := a) rfl
  obtain ⟨budget, budget', hbudget, hbudget', hle⟩ :=
    hmono slower _ rfl (by decide) (by decide) hcycles
  obtain rfl : budget = 0xFFFFFFFFFFFFFFFF :=
    UInt64.toNat_inj.1 ((hlow budget hbudget).trans (by decide))
  exact ⟨_, _, rfl, rfl, hbudget, budget', hbudget', hle⟩

/-- A tick of two seconds at 2^63 cycles a second has room for 2^64 cycles, and the budget is zero;
with a tick of one second it is 2^63. With the longest tick at the highest rate there is none. -/
theorem budget_of_long_ticks :
    ∃ two one longest,
      Settings.ofArguments { clockHz := 0x8000000000000000, tickMillis := 2000 } = .ok two ∧
      Settings.ofArguments { clockHz := 0x8000000000000000, tickMillis := 1000 } = .ok one ∧
      Settings.ofArguments { clockHz := 0xFFFFFFFFFFFFFFFF, tickMillis := 0xFFFFFFFFFFFFFFFF } =
        .ok longest ∧
      cyclesWithin 2000 0x8000000000000000 = UInt64.size ∧ two.clock.budget = some 0 ∧
      one.clock.budget = some 0x8000000000000000 ∧ longest.clock.budget = none :=
  ⟨_, _, _, rfl, rfl, rfl, by decide, by decide, by decide, by decide⟩

end Challenger1P
