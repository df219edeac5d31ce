import Challenger1P.Proofs.Machine.PlainSteps
import Challenger1P.Proofs.Mos6502.Cost

/-!
# A tick keeps to its budget

A tick goes on until its budget is spent, and an instruction that completes costs from two to seven
cycles. So it ends, after at most half as many steps as it may spend cycles, and the last of them takes it
six cycles over the budget at the most.

* `running_before_end`: until the last step of a tick the processor is running, each step has cost
  two cycles or more, and the counter is not past the budget.
* `last_step_cases`: the last step halts the processor or spends what is left of the budget.
-/

namespace Challenger1P

namespace Cpu

variable {β : Type} [Bus β] {c : Cpu β} {budget n : Nat}

theorem steps_succ (c : Cpu β) (i : Nat) : c.steps (i + 1) = (c.steps i).step := steps_add i 1 c

/-- Before a tick ends, it is not at an end. -/
theorem before_end (hn : IsLeast (c.tickEnds budget) n) {i : Nat} (hi : i < n) (hpos : 0 < i) :
    (c.steps i).stop = none ∧ (c.steps i).cycles.toNat < c.cycles.toNat + budget := by
  have hout : ¬ ((c.steps i).stop ≠ none ∨ c.cycles.toNat + budget ≤ (c.steps i).cycles.toNat) :=
    fun hend => Nat.not_le.2 hi (hn.2 ⟨hpos, hend⟩)
  rw [not_or, not_not, Nat.not_le] at hout
  exact hout

/-! ## One tick

It begins with the processor running and with room on the counter for the budget and one more
instruction, and ends after `n` steps. -/

section Tick

variable (h : c.stop = none) (hroom : c.cycles.toNat + budget + 7 < UInt64.size)
  (hn : IsLeast (c.tickEnds budget) n)

include h hroom hn

theorem running_before_end {i : Nat} (hi : i < n) :
    (c.steps i).stop = none ∧ c.cycles.toNat + 2 * i ≤ (c.steps i).cycles.toNat ∧
      (c.steps i).cycles.toNat ≤ c.cycles.toNat + budget := by
  induction i with
  | zero => exact ⟨h, Nat.le_refl _, Nat.le_add_right _ _⟩
  | succ i ih =>
    obtain ⟨hrunning, hspent, hleft⟩ := ih (Nat.lt_of_succ_lt hi)
    obtain ⟨hnext, hbelow⟩ := before_end hn hi (Nat.succ_pos i)
    refine ⟨hnext, ?_, Nat.le_of_lt hbelow⟩
    rw [steps_succ] at hnext ⊢
    rcases step_cases_of_room hrunning (by omega) with ⟨hhalted, -⟩ | ⟨-, hcost, -⟩
    · exact absurd hnext (stop_ne_none_of_halted hhalted)
    · omega

/-- The last step of a tick is the one before which `last` steps were made. -/
theorem last_step_cases : ∃ last, n = last + 1 ∧
    ((c.steps n).halted = true ∧ (c.steps n).cycles.toNat = (c.steps last).cycles.toNat ∨
      (c.steps n).stop = none ∧ c.cycles.toNat + budget ≤ (c.steps n).cycles.toNat ∧
        (c.steps n).cycles.toNat ≤ (c.steps last).cycles.toNat + 7) := by
  obtain ⟨last, rfl⟩ : ∃ last, n = last + 1 := Nat.exists_eq_add_of_le' hn.1.1
  obtain ⟨hrunning, -, hleft⟩ := running_before_end h hroom hn (Nat.lt_succ_self last)
  obtain ⟨-, hend⟩ := hn.1
  refine ⟨last, rfl, ?_⟩
  rw [steps_succ] at hend ⊢
  rcases step_cases_of_room hrunning (by omega) with ⟨hhalted, hkept⟩ | ⟨hstop, -, hcost⟩
  · exact Or.inl ⟨hhalted, congrArg UInt64.toNat hkept⟩
  · exact Or.inr ⟨hstop, hend.resolve_left (not_not_intro hstop), hcost⟩

theorem length_le : n ≤ max 1 ((budget + 1) / 2) := by
  obtain ⟨last, rfl, -⟩ := last_step_cases h hroom hn
  rcases Nat.eq_zero_or_pos last with rfl | hpos
  · exact Nat.le_max_left _ _
  · obtain ⟨-, hspent, -⟩ := running_before_end h hroom hn (Nat.lt_succ_self last)
    obtain ⟨-, hbelow⟩ := before_end hn (Nat.lt_succ_self last) hpos
    omega

theorem start_le {i : Nat} (hi : i ≤ n) : c.cycles.toNat ≤ (c.steps i).cycles.toNat := by
  rcases Nat.lt_or_eq_of_le hi with hlt | rfl
  · obtain ⟨-, hspent, -⟩ := running_before_end h hroom hn hlt
    omega
  · obtain ⟨last, rfl, hcases⟩ := last_step_cases h hroom hn
    obtain ⟨-, hspent, -⟩ := running_before_end h hroom hn (Nat.lt_succ_self last)
    rcases hcases with ⟨-, hkept⟩ | ⟨-, hreached, -⟩ <;> omega

/-- The processor has halted at the end if one of the steps halted it. -/
theorem halted_iff_exists : (c.steps n).halted = true ↔
    ∃ i < n, (c.steps i).stop = none ∧ (c.steps (i + 1)).halted = true := by
  constructor
  · intro hhalted
    obtain ⟨last, rfl, -⟩ := last_step_cases h hroom hn
    have hlast := Nat.lt_succ_self last
    exact ⟨last, hlast, (running_before_end h hroom hn hlast).1, hhalted⟩
  · rintro ⟨i, hi, -, hhalted⟩
    have hend : n ≤ i + 1 :=
      hn.2 ⟨Nat.succ_pos i, Or.inl (stop_ne_none_of_halted hhalted)⟩
    rwa [Nat.le_antisymm hend hi]

theorem stop_eq_none_of_not_halted (hhalted : (c.steps n).halted = false) :
    (c.steps n).stop = none := by
  obtain ⟨last, -, ⟨hlast, -⟩ | ⟨hstop, -, -⟩⟩ := last_step_cases h hroom hn
  · rw [hhalted] at hlast
    cases hlast
  · exact hstop

theorem spent_bounds (hstop : (c.steps n).stop = none) :
    c.cycles.toNat + budget ≤ (c.steps n).cycles.toNat ∧
      (c.steps n).cycles.toNat ≤ c.cycles.toNat + (max budget 1 + 6) := by
  obtain ⟨last, rfl, ⟨hhalted, -⟩ | ⟨-, hreached, hcost⟩⟩ := last_step_cases h hroom hn
  · exact absurd hstop (stop_ne_none_of_halted hhalted)
  · refine ⟨hreached, ?_⟩
    rcases Nat.eq_zero_or_pos last with rfl | hpos
    · have hstart : (c.steps 0).cycles.toNat = c.cycles.toNat := rfl
      omega
    · obtain ⟨-, hbelow⟩ := before_end hn (Nat.lt_succ_self last) hpos
      omega

end Tick

end Cpu

namespace Machine

variable {m : Machine}

theorem spend_cleared (m : Machine) :
    m.spend.2.cpu = m.cleared.cpu.steps m.spend.1 ∧
      IsLeast (m.cleared.cpu.tickEnds m.budget.toNat) m.spend.1 := by
  rw [spend_eq, Cpu.spend_eq_tickLength]
  exact ⟨rfl, Cpu.isLeast_tickLength _ _⟩

theorem outcomeSince_of_running (h : m.cpu.stop = none) (start : Nat) :
    ∃ screen, m.outcomeSince start = .running (m.cpu.cycles.toNat - start) screen := by
  simp only [outcomeSince, h]
  exact ⟨_, rfl⟩

theorem outcomeSince_eq_halted_iff (start : Nat) :
    m.outcomeSince start = .halted ↔ m.cpu.halted = true := by
  refine ⟨fun h => ?_, fun h => outcomeSince_of_halted h start⟩
  unfold outcomeSince at h
  split at h
  · rename_i hstop
    exact Cpu.halted_iff.2 ⟨_, hstop⟩
  · cases h
  · cases h

/-- A tick of a running processor, with room on the counter for the budget and one more instruction,
makes at least one step and otherwise at most half as many as its budget has cycles. Before the last
of them the budget is not spent, and at no point does the counter stand below its start. The outcome
says whether one of the steps halted the processor; if none did, it gives exactly the cycles spent,
which are the budget and at most six more. -/
theorem a_tick_keeps_to_its_budget (m : Machine) (h : m.cpu.stop = none)
    (hroom : m.cpu.cycles.toNat + m.budget.toNat + 7 < 2 ^ 64) :
    let start := m.cpu.cycles.toNat
    let budget := m.budget.toNat
    let made := m.spend.1
    let after := fun i => m.cleared.cpu.steps i
    m.tick.2.cpu = after made ∧ 1 ≤ made ∧ made ≤ max 1 ((budget + 1) / 2) ∧
    (∀ i ≤ made, start ≤ (after i).cycles.toNat) ∧
    (∀ i, 0 < i → i < made → (after i).cycles.toNat < start + budget) ∧
    (m.tick.1 = .halted ↔ ∃ i < made, (after i).stop = none ∧ (after (i + 1)).halted = true) ∧
    (m.tick.1 = .halted ∨ ∃ spent screen, m.tick.1 = .running spent screen ∧
      (after made).cycles.toNat = start + spent ∧
      budget ≤ spent ∧ spent ≤ max budget 1 + 6) := by
  intro start budget made after
  have hcleared : m.cleared.cpu.stop = none := h
  have hsize : m.cleared.cpu.cycles.toNat + budget + 7 < UInt64.size := hroom
  obtain ⟨htick, hleast⟩ := spend_cleared m
  have houtcome : m.tick.1 = m.spend.2.outcomeSince start := rfl
  refine ⟨htick, hleast.1.1, Cpu.length_le hcleared hsize hleast,
    fun i hi => Cpu.start_le hcleared hsize hleast hi,
    fun i hpos hi => (Cpu.before_end hleast hi hpos).2, ?_, ?_⟩
  · rw [houtcome, outcomeSince_eq_halted_iff, htick]
    exact Cpu.halted_iff_exists hcleared hsize hleast
  · rw [houtcome, outcomeSince_eq_halted_iff]
    cases hhalted : m.spend.2.cpu.halted with
    | true => exact Or.inl rfl
    | false =>
      rw [htick] at hhalted
      have hstop := Cpu.stop_eq_none_of_not_halted hcleared hsize hleast hhalted
      obtain ⟨hmin, hmax⟩ := Cpu.spent_bounds hcleared hsize hleast hstop
      rw [← htick] at hstop hmin hmax
      obtain ⟨screen, hscreen⟩ := outcomeSince_of_running hstop start
      have hstart : m.cleared.cpu.cycles.toNat = start := rfl
      rw [hstart] at hmin hmax
      refine Or.inr ⟨_, screen, hscreen, ?_, ?_, ?_⟩
      · show (m.cleared.cpu.steps m.spend.1).cycles.toNat = _
        rw [← htick]
        omega
      · omega
      · omega

/-- A budget of one cycle, and a software interrupt that costs seven. -/
theorem a_tick_keeps_to_its_budget_on_interrupt :
    let m : Machine :=
      { cpu := { registers := { sp := 0xFF }, bus := { device := {} } }, clock := { rateHz := 100 }
        budget := 1, budget_eq := by decide +kernel }
    (m.cpu.stop = none ∧ m.cpu.cycles.toNat + m.budget.toNat + 7 < 2 ^ 64) ∧
      m.spend.1 = 1 ∧ ∃ screen, m.tick.1 = .running 7 screen := by
  intro m
  have hroom : m.cpu.cycles.toNat + m.budget.toNat + 7 < 2 ^ 64 := by decide +kernel
  have hrunning : (m.cleared.cpu.steps 1).halted = false := by decide +kernel
  have hcost : (m.cleared.cpu.steps 1).cycles.toNat = m.cpu.cycles.toNat + 7 := by decide +kernel
  obtain ⟨-, hmin, hmax, -, -, hiff, hend⟩ := a_tick_keeps_to_its_budget m rfl hroom
  have hmade : m.spend.1 = 1 := Nat.le_antisymm (hmax.trans (by decide +kernel)) hmin
  rw [hmade] at hiff hend
  refine ⟨⟨rfl, hroom⟩, hmade, ?_⟩
  rcases hend with hhalted | ⟨spent, screen, houtcome, hspent, -, -⟩
  · obtain ⟨i, hi, -, hhalted⟩ := hiff.1 hhalted
    obtain rfl := Nat.lt_one_iff.1 hi
    rw [hrunning] at hhalted
    cases hhalted
  · obtain rfl : spent = 7 := Nat.add_left_cancel (hspent.symm.trans hcost)
    exact ⟨screen, houtcome⟩

end Machine

end Challenger1P
