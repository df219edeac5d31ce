import Challenger1P.Mos6502.Cpu

/-!
# Runs of many instructions

A processor is run until it has spent a number of cycles (`spend`), or until something stops it
before that. Such a run says how many steps it made, and is nothing but steps (`spend_eq_steps`).
-/

namespace Challenger1P.Cpu

variable {β : Type} [Bus β]

/-- Step at least once, and on until the processor stops or its counter has reached `goal`, counting
on from `made`. -/
def spendUntil (goal made : Nat) (c : Cpu β) : Nat × Cpu β :=
  let next := c.step
  if h : next.stop = none ∧ next.cycles.toNat < goal then spendUntil goal (made + 1) next
  else (made + 1, next)
termination_by goal - c.cycles.toNat
decreasing_by
  have hstop : c.step.stop = none := h.1
  have hgoal : c.step.cycles.toNat < goal := h.2
  have := cycles_lt_step hstop
  omega

/-- Step at least once, and on until the processor stops or has spent `budget` cycles: how many
steps, and what they lead to. -/
def spend (budget : Nat) (c : Cpu β) : Nat × Cpu β := spendUntil (c.cycles.toNat + budget) 0 c

/-! ## Only steps -/

theorem step_of_stopped {c : Cpu β} (h : c.stop ≠ none) : c.step = c := by
  obtain ⟨registers, cycles, bus, _ | stop⟩ := c
  · exact absurd rfl h
  · rfl

theorem steps_of_stopped {c : Cpu β} (h : c.stop ≠ none) (count : Nat) : c.steps count = c := by
  induction count with
  | zero => rfl
  | succ count ih => rw [steps, step_of_stopped h, ih]

theorem steps_add (m n : Nat) (c : Cpu β) : c.steps (m + n) = (c.steps m).steps n := by
  induction m generalizing c with
  | zero => simp [steps]
  | succ m ih => rw [Nat.succ_add, steps, steps, ih]

theorem spendUntil_eq_steps (goal made : Nat) (c : Cpu β) :
    ∃ count, 0 < count ∧ spendUntil goal made c = (made + count, c.steps count) := by
  fun_induction spendUntil goal made c with
  | case1 made c next h ih =>
    obtain ⟨count, -, hcount⟩ := ih
    exact ⟨count + 1, by omega, by rw [hcount, steps, Nat.add_assoc, Nat.add_comm 1]⟩
  | case2 made c next h => exact ⟨1, by omega, rfl⟩

theorem spend_eq_steps (budget : Nat) (c : Cpu β) :
    0 < (c.spend budget).1 ∧ (c.spend budget).2 = c.steps (c.spend budget).1 := by
  obtain ⟨count, hpos, h⟩ := spendUntil_eq_steps (c.cycles.toNat + budget) 0 c
  rw [spend, h, Nat.zero_add]
  exact ⟨hpos, rfl⟩

end Challenger1P.Cpu
